import CondSat.Logging.Configure
import CondSat.Proofs.Members

/-! # Levels in force

A logger with context keeps its place: the loggers above it have context too or are the top
logger, and were made before it.  Only loggers that have been replaced hang elsewhere when
further names get a logger.  So the level that is in force for a logger with context stays
the same until levels are set, whatever loggers are made in the meantime. -/
set_option autoImplicit false
namespace CondSat.Logging.Registry

variable {registry later : Registry} {name : String} {number other : Nat} {busy : Option String}

/-! ## Numbers and names -/

theorem slot?_setSlot_self (registry : Registry) (name : String) (slot : Slot) :
    (registry.setSlot name slot).slot? name = some slot :=
  Members.lookup_put_self name slot registry.slots

theorem slot?_setSlot_of_ne {asked : String} (different : asked ≠ name) (slot : Slot) :
    (registry.setSlot name slot).slot? asked = registry.slot? asked :=
  Members.lookup_put_of_ne different slot registry.slots

theorem logger_change_of_ne (different : other ≠ number) (f : Logger → Logger) :
    (registry.change number f).logger other = registry.logger other := by
  simp [logger, change, Ne.symm different]

theorem logger_change_self (inside : number < registry.loggers.length) (f : Logger → Logger) :
    (registry.change number f).logger number = f (registry.logger number) := by
  simp [logger, change, inside]

theorem length_change (registry : Registry) (number : Nat) (f : Logger → Logger) :
    (registry.change number f).loggers.length = registry.loggers.length :=
  List.length_modify f registry.loggers number

theorem length_add (registry : Registry) (logger : Logger) :
    (registry.add logger).2.loggers.length = registry.loggers.length + 1 :=
  List.length_append

theorem logger_add_of_lt (inside : number < registry.loggers.length) (logger : Logger) :
    (registry.add logger).2.logger number = registry.logger number := by
  simp [Registry.logger, add, List.getElem?_append_left inside]

theorem logger_add_self (registry : Registry) (logger : Logger) :
    (registry.add logger).2.logger registry.loggers.length = logger := by
  simp [Registry.logger, add]

theorem lt_of_hasContext (context : (registry.logger number).hasContext = true) :
    number < registry.loggers.length := by
  refine Nat.lt_of_not_le fun outside => ?_
  rw [logger, List.getElem?_eq_none outside] at context
  cases context

/-! ## Settled registries -/

def Plain (registry : Registry) (number : Nat) : Prop :=
  0 < number ∧ number < registry.loggers.length ∧ (registry.logger number).hasContext = false

/-- A logger whose level others can inherit. -/
def Lasting (registry : Registry) (number : Nat) : Prop :=
  number = 0 ∨ (registry.logger number).hasContext = true

/-- A name stands for a logger with context, or has nothing but plain loggers below it. -/
def Suits (registry : Registry) : Slot → Prop
  | .logger number => (registry.logger number).hasContext = true
  | .vacant below => ∀ number ∈ below, registry.Plain number

/-- Names stand for what suits them, and loggers with context hang below lasting ones that
were made before.  One name may be busy: what it stands for need not suit it yet. -/
structure Settled (busy : Option String) (registry : Registry) : Prop where
  top : 0 < registry.loggers.length
  topPlain : (registry.logger 0).hasContext = false
  topParent : (registry.logger 0).parent = none
  slots : ∀ name slot, some name ≠ busy → registry.slot? name = some slot → registry.Suits slot
  above : ∀ number, (registry.logger number).hasContext = true →
    ∀ parent, (registry.logger number).parent = some parent →
      parent < number ∧ registry.Lasting parent

/-- Everything that lasts is still there, and so is every name of a logger; only the top
logger's name is given to further loggers. -/
structure Extends (registry later : Registry) : Prop where
  lasting : ∀ number, registry.Lasting number → later.logger number = registry.logger number
  known : ∀ name number, name ≠ topName → registry.slot? name = some (.logger number) →
    later.slot? name = some (.logger number)

theorem Extends.refl (registry : Registry) : registry.Extends registry :=
  ⟨fun _ _ => rfl, fun _ _ _ found => found⟩

theorem Extends.still (extension : registry.Extends later) (lasting : registry.Lasting number) :
    later.Lasting number := by
  refine lasting.imp_right fun context => ?_
  rw [extension.lasting number lasting]
  exact context

theorem Extends.trans {last : Registry} (first : registry.Extends later)
    (second : later.Extends last) : registry.Extends last where
  lasting number lasting := by
    rw [second.lasting number (first.still lasting), first.lasting number lasting]
  known name number proper found :=
    second.known name number proper (first.known name number proper found)

theorem Settled.lasting_lt (settled : registry.Settled busy) (lasting : registry.Lasting number) :
    number < registry.loggers.length := by
  rcases lasting with rfl | context
  · exact settled.top
  · exact lt_of_hasContext context

theorem initial_settled : initial.Settled none where
  top := by decide
  topPlain := rfl
  topParent := rfl
  slots := by
    intro name slot _ found
    cases found
  above := by
    intro number context
    have first : number = 0 := by
      have inside := lt_of_hasContext context
      simpa [initial] using inside
    subst first
    cases context

/-! ## Giving names a meaning -/

/-- What a name stands for may change to what suits it, or to anything if it is busy then. -/
theorem Settled.setSlot (settled : registry.Settled busy) {now : Option String} {slot : Slot}
    (suits : some name ≠ now → registry.Suits slot)
    (idle : ∀ asked, asked ≠ name → some asked ≠ now → some asked ≠ busy) :
    (registry.setSlot name slot).Settled now where
  top := settled.top
  topPlain := settled.topPlain
  topParent := settled.topParent
  slots := by
    intro asked stated free found
    by_cases same : asked = name
    · subst same
      rw [slot?_setSlot_self] at found
      cases found
      exact suits free
    · rw [slot?_setSlot_of_ne same] at found
      exact settled.slots asked stated (idle asked same free) found
  above := settled.above

theorem Extends.setSlot (extension : registry.Extends later)
    (unknown : name ≠ topName → ∀ number, registry.slot? name ≠ some (.logger number))
    (slot : Slot) : registry.Extends (later.setSlot name slot) where
  lasting := extension.lasting
  known := by
    intro asked number other found
    have different : asked ≠ name := by
      rintro rfl
      exact unknown other number found
    rw [slot?_setSlot_of_ne different]
    exact extension.known asked number other found

/-! ## Adding loggers -/

theorem Settled.extends_add (settled : registry.Settled busy) (logger : Logger) :
    registry.Extends (registry.add logger).2 where
  lasting _ lasting := logger_add_of_lt (settled.lasting_lt lasting) logger
  known _ _ _ found := found

theorem Suits.add {slot : Slot} (suits : registry.Suits slot) (logger : Logger) :
    (registry.add logger).2.Suits slot := by
  cases slot with
  | logger number =>
      rw [Suits, logger_add_of_lt (lt_of_hasContext suits)]
      exact suits
  | vacant below =>
      intro number member
      obtain ⟨positive, inside, plain⟩ := suits number member
      refine ⟨positive, ?_, ?_⟩
      · rw [length_add]
        exact Nat.lt_succ_of_lt inside
      · rw [logger_add_of_lt inside]
        exact plain

/-- A logger may be added whose parent, if it has context, is a lasting one. -/
theorem Settled.add (settled : registry.Settled busy) {logger : Logger}
    (hangs : logger.hasContext = true → ∀ parent, logger.parent = some parent →
      registry.Lasting parent) :
    (registry.add logger).2.Settled busy := by
  have extension := settled.extends_add logger
  refine ⟨?_, ?_, ?_, ?_, ?_⟩
  · rw [length_add]
    exact Nat.succ_pos _
  · rw [extension.lasting 0 (Or.inl rfl)]
    exact settled.topPlain
  · rw [extension.lasting 0 (Or.inl rfl)]
    exact settled.topParent
  · intro name slot idle found
    exact (settled.slots name slot idle found).add logger
  · intro number context parent hung
    have inside := lt_of_hasContext context
    rw [length_add] at inside
    rcases Nat.lt_succ_iff_lt_or_eq.mp inside with old | rfl
    · rw [logger_add_of_lt old] at context hung
      obtain ⟨before, lasting⟩ := settled.above number context parent hung
      exact ⟨before, extension.still lasting⟩
    · rw [logger_add_self] at context hung
      have lasting := hangs context parent hung
      exact ⟨settled.lasting_lt lasting, extension.still lasting⟩

/-! ## Loggers that change -/

/-- Loggers have changed, but not the names, nor which loggers have context, nor what lasting
ones hang below. -/
structure Rehung (registry later : Registry) : Prop where
  slots : later.slots = registry.slots
  length : later.loggers.length = registry.loggers.length
  context : ∀ number, (later.logger number).hasContext = (registry.logger number).hasContext
  parent : ∀ number, registry.Lasting number →
    (later.logger number).parent = (registry.logger number).parent

namespace Rehung

theorem refl (registry : Registry) : registry.Rehung registry :=
  ⟨rfl, rfl, fun _ => rfl, fun _ _ => rfl⟩

theorem lasting (rehung : registry.Rehung later) :
    later.Lasting number ↔ registry.Lasting number := by
  rw [Lasting, Lasting, rehung.context]

theorem plain (rehung : registry.Rehung later) : later.Plain number ↔ registry.Plain number := by
  rw [Plain, Plain, rehung.context, rehung.length]

theorem trans {last : Registry} (first : registry.Rehung later) (second : later.Rehung last) :
    registry.Rehung last where
  slots := second.slots.trans first.slots
  length := second.length.trans first.length
  context number := (second.context number).trans (first.context number)
  parent number lasting :=
    (second.parent number (first.lasting.mpr lasting)).trans (first.parent number lasting)

theorem suits (rehung : registry.Rehung later) {slot : Slot} (suits : registry.Suits slot) :
    later.Suits slot := by
  cases slot with
  | logger number => exact (rehung.context number).trans suits
  | vacant below => exact fun number member => rehung.plain.mpr (suits number member)

theorem settled (rehung : registry.Rehung later) (settled : registry.Settled busy) :
    later.Settled busy where
  top := by
    rw [rehung.length]
    exact settled.top
  topPlain := (rehung.context 0).trans settled.topPlain
  topParent := (rehung.parent 0 (Or.inl rfl)).trans settled.topParent
  slots := by
    intro name slot idle found
    rw [slot?, rehung.slots] at found
    exact rehung.suits (settled.slots name slot idle found)
  above := by
    intro number context parent hung
    rw [rehung.context] at context
    rw [rehung.parent number (Or.inr context)] at hung
    rw [rehung.lasting]
    exact settled.above number context parent hung

end Rehung

theorem rehung_change (registry : Registry) (number : Nat) {f : Logger → Logger}
    (context : ∀ logger, (f logger).hasContext = logger.hasContext)
    (parent : registry.Plain number ∨ ∀ logger, (f logger).parent = logger.parent) :
    registry.Rehung (registry.change number f) := by
  have changed : ∀ other, (registry.change number f).logger other = registry.logger other ∨
      other = number ∧ (registry.change number f).logger other = f (registry.logger other) := by
    intro other
    by_cases same : other = number
    · subst same
      by_cases inside : other < registry.loggers.length
      · exact Or.inr ⟨rfl, logger_change_self inside f⟩
      · refine Or.inl ?_
        simp [logger, change, inside]
    · exact Or.inl (logger_change_of_ne same f)
  refine ⟨rfl, length_change registry number f, fun other => ?_, fun other lasting => ?_⟩
  · rcases changed other with same | ⟨-, replaced⟩
    · rw [same]
    · rw [replaced, context]
  · rcases changed other with same | ⟨rfl, replaced⟩
    · rw [same]
    · rcases parent with ⟨positive, -, plain⟩ | parent
      · rcases lasting with rfl | hasContext
        · exact absurd positive (Nat.lt_irrefl 0)
        · rw [plain] at hasContext
          cases hasContext
      · rw [replaced, parent]

theorem extends_change (plain : registry.Plain number) (f : Logger → Logger) :
    registry.Extends (registry.change number f) where
  lasting other lasting := by
    obtain ⟨positive, -, without⟩ := plain
    refine logger_change_of_ne ?_ f
    rintro rfl
    rcases lasting with rfl | context
    · exact Nat.lt_irrefl 0 positive
    · rw [without] at context
      cases context
  known _ _ _ found := found

/-! ## Making a logger -/

/-- A beginning of a name is shorter than the name. -/
theorem ne_of_mem_beginnings {beginning : String} (member : beginning ∈ beginnings name) :
    beginning ≠ name := by
  obtain ⟨position, kept, rfl⟩ := List.mem_map.mp member
  have dot := (List.mem_filter.mp kept).1
  have inside : position < name.toList.length := by
    -- whatever the scan keeps is the position of a dot in the name
    revert dot
    refine List.foldlRecOn (motive := fun kept => position ∈ kept → position < name.toList.length)
      _ _ (fun none => nomatch none) ?_
    intro kept ih later found member
    have here : later < name.toList.length := by
      obtain ⟨⟨letter, place⟩, marked, rfl⟩ := List.mem_map.mp (List.mem_reverse.mp found)
      exact (List.mem_zipIdx' (List.mem_filter.mp marked).1).1
    split at member
    · split at member
      · rcases List.mem_append.mp member with old | new
        · exact ih old
        · rw [List.mem_singleton.mp new]
          exact here
      · exact ih member
    · rw [List.mem_singleton.mp member]
      exact here
  intro same
  have shorter := congrArg (fun text : String => text.toList.length) same
  simp only [String.toList_ofList, List.length_take] at shorter
  omega

structure Making (start : Registry) (name : String) (number : Nat) (registry : Registry) :
    Prop where
  settled : registry.Settled (some name)
  grown : start.Extends registry
  plain : registry.Plain number

namespace Making

variable {start : Registry}

theorem change (making : Making start name number registry) (plain : registry.Plain other)
    {f : Logger → Logger} (context : ∀ logger, (f logger).hasContext = logger.hasContext) :
    Making start name number (registry.change other f) ∧
      ∀ child, registry.Plain child → (registry.change other f).Plain child := by
  have rehung := rehung_change registry other context (Or.inl plain)
  exact ⟨⟨rehung.settled making.settled, making.grown.trans (extends_change plain f),
    rehung.plain.mpr making.plain⟩, fun _ => rehung.plain.mpr⟩

theorem takeOver (making : Making start name number registry) {below : List Nat}
    (plain : ∀ child ∈ below, registry.Plain child) :
    Making start name number (registry.takeOver number below) := by
  induction below generalizing registry with
  | nil => exact making
  | cons child rest ih =>
      have others : ∀ other ∈ rest, registry.Plain other :=
        fun other member => plain other (List.mem_cons_of_mem _ member)
      rw [Registry.takeOver]
      split
      · exact ih making others
      · obtain ⟨first, kept⟩ := making.change (f := fun l =>
          { l with parent := (registry.logger child).parent }) making.plain fun _ => rfl
        obtain ⟨second, still⟩ := first.change (f := fun l => { l with parent := some number })
          (kept child (plain child List.mem_cons_self)) fun _ => rfl
        exact ih second fun other member => still other (kept other (others other member))

theorem vacate (making : Making start name number registry) {asked : String}
    (unknown : ∀ found, registry.slot? asked ≠ some (.logger found)) {below : List Nat}
    (plain : ∀ child ∈ below, registry.Plain child) :
    Making start name number (registry.setSlot asked (.vacant below)) where
  settled := making.settled.setSlot (fun _ => plain) fun _ _ => id
  grown := making.grown.setSlot (fun proper found old =>
    unknown found (making.grown.known asked found proper old)) _
  plain := making.plain

/-- The search for the logger above ends at a lasting one. -/
theorem adopt (making : Making start name number registry) {beginnings : List String}
    (shorter : ∀ beginning ∈ beginnings, beginning ≠ name) :
    Making start name number (registry.adopt number beginnings).2 ∧
      (registry.adopt number beginnings).2.Lasting (registry.adopt number beginnings).1 := by
  induction beginnings generalizing registry with
  | nil => exact ⟨making, Or.inl rfl⟩
  | cons beginning rest ih =>
      have idle : some beginning ≠ some name :=
        fun same => shorter beginning List.mem_cons_self (Option.some.inj same)
      have others : ∀ other ∈ rest, other ≠ name :=
        fun other member => shorter other (List.mem_cons_of_mem _ member)
      rw [Registry.adopt]
      split
      · next above found => exact ⟨making, Or.inr (making.settled.slots _ _ idle found)⟩
      · next below found =>
          have plain := making.settled.slots _ _ idle found
          refine ih (making.vacate ?_ fun child member => ?_) others
          · rw [found]
            nofun
          · split at member
            · exact plain child member
            · rcases List.mem_append.mp member with old | new
              · exact plain child old
              · rw [List.mem_singleton.mp new]
                exact making.plain
      · next unknown =>
          refine ih (making.vacate ?_ fun child member => ?_) others
          · rw [unknown]
            nofun
          · rw [List.mem_singleton.mp member]
            exact making.plain

theorem first (settled : registry.Settled none)
    (unknown : ∀ number, registry.slot? name ≠ some (.logger number)) :
    Making registry name registry.loggers.length
      ((registry.add { name }).2.setSlot name (.logger registry.loggers.length)) where
  settled := (settled.add fun context => absurd context Bool.false_ne_true).setSlot
    (fun idle => absurd rfl idle) fun _ _ _ => nofun
  grown := (settled.extends_add _).setSlot (fun _ => unknown) _
  plain := by
    refine ⟨settled.top, ?_, ?_⟩
    · exact (length_add registry { name }).symm ▸ Nat.lt_succ_self _
    · exact congrArg Logger.hasContext (logger_add_self registry { name })

end Making

def made (registry : Registry) (name : String) (below : List Nat) : Nat × Registry :=
  let number := registry.loggers.length
  let placed := ((registry.add { name }).2.setSlot name (.logger number)).takeOver number below
  let (parent, hung) := placed.adopt number (beginnings name)
  (number, hung.change number fun l => { l with parent := some parent })

theorem obtain_eq (registry : Registry) (name : String) :
    registry.obtain name =
      if name = topName ∨ name.isEmpty then (0, registry)
      else
        match registry.slot? name with
        | some (.logger number) => (number, registry)
        | some (.vacant below) => registry.made name below
        | none => registry.made name [] := rfl

theorem made_spec (settled : registry.Settled none)
    (unknown : ∀ number, registry.slot? name ≠ some (.logger number)) {below : List Nat}
    (plain : ∀ child ∈ below, registry.Plain child) :
    Making registry name (registry.made name below).1 (registry.made name below).2 ∧
      ∀ parent, ((registry.made name below).2.logger (registry.made name below).1).parent =
        some parent → (registry.made name below).2.Lasting parent := by
  have suits : registry.Suits (.vacant below) := plain
  have placed := (Making.first settled unknown).takeOver (suits.add { name })
  obtain ⟨adopted, lasting⟩ := placed.adopt fun _ => @ne_of_mem_beginnings name _
  unfold made
  dsimp only
  generalize Registry.adopt _ _ _ = result at adopted lasting ⊢
  obtain ⟨above, hung⟩ := result
  dsimp only at adopted lasting ⊢
  obtain ⟨finished, -⟩ := adopted.change (f := fun l => { l with parent := some above })
    adopted.plain fun _ => rfl
  refine ⟨finished, fun parent hangs => ?_⟩
  rw [logger_change_self adopted.plain.2.1] at hangs
  cases hangs
  exact (extends_change adopted.plain _).still lasting

/-! ## Loggers with context -/

def title (name : String) : String := if name.isEmpty then anonymous else name

theorem title_nonempty (name : String) : (title name).isEmpty = false := by
  unfold title
  split
  · decide
  · next stated => exact Bool.eq_false_iff.mpr stated

def raised (level least : Int) : Int := if level = inherited ∨ level < least then least else level

theorem contextual_eq (registry : Registry) (name : String) (least : Int) :
    registry.contextual name least =
      let (number, registry) := registry.obtain (title name)
      let plain := registry.logger number
      if plain.hasContext then (number, registry)
      else
        (registry.loggers.length, (registry.add { plain with
          level := raised plain.level least, hasContext := true,
          propagates := plain.propagates || plain.handlers.isEmpty }).2.setSlot (title name)
            (.logger registry.loggers.length)) := rfl

structure Found (start : Registry) (name : String) (number : Nat) (registry : Registry) :
    Prop where
  settled : registry.Settled none
  grown : start.Extends registry
  context : (registry.logger number).hasContext = true
  named : name ≠ topName → registry.slot? name = some (.logger number)

theorem found_of_wrapping {start : Registry} (settled : registry.Settled busy)
    (grown : start.Extends registry) {logger : Logger} (context : logger.hasContext = true)
    (hangs : ∀ parent, logger.parent = some parent → registry.Lasting parent)
    (idle : ∀ asked, asked ≠ name → some asked ≠ busy)
    (unknown : name ≠ topName → ∀ number, start.slot? name ≠ some (.logger number)) :
    Found start name registry.loggers.length
      ((registry.add logger).2.setSlot name (.logger registry.loggers.length)) where
  settled := (settled.add fun _ => hangs).setSlot
    (fun _ => (congrArg Logger.hasContext (logger_add_self registry logger)).trans context)
    fun asked different _ => idle asked different
  grown := (grown.trans (settled.extends_add logger)).setSlot unknown _
  context := (congrArg Logger.hasContext (logger_add_self registry logger)).trans context
  named _ := slot?_setSlot_self _ _ _

theorem contextual_known {least : Int} (settled : registry.Settled none)
    (proper : title name ≠ topName)
    (found : registry.slot? (title name) = some (.logger number)) :
    registry.contextual name least = (number, registry) := by
  have context : (registry.logger number).hasContext = true :=
    settled.slots _ _ nofun found
  rw [contextual_eq, obtain_eq, if_neg (by simp [proper, title_nonempty]), found]
  dsimp only
  rw [if_pos context]

theorem contextual_found (settled : registry.Settled none) (name : String) (least : Int) :
    Found registry (title name) (registry.contextual name least).1
      (registry.contextual name least).2 := by
  by_cases proper : title name = topName
  -- the top logger has no context, so that its name gets a new logger each time
  · rw [contextual_eq, obtain_eq, if_pos (Or.inl proper)]
    dsimp only
    rw [if_neg (by simp [settled.topPlain])]
    refine found_of_wrapping settled (.refl registry) rfl ?_ (fun _ _ => nofun)
      fun improper => absurd proper improper
    intro parent hangs
    rw [settled.topParent] at hangs
    cases hangs
  · by_cases known : ∃ number, registry.slot? (title name) = some (.logger number)
    · obtain ⟨number, found⟩ := known
      rw [contextual_known settled proper found]
      exact ⟨settled, .refl registry, settled.slots _ _ nofun found, fun _ => found⟩
    · have unknown := not_exists.mp known
      have makes : ∃ below, registry.obtain (title name) = registry.made (title name) below ∧
          ∀ child ∈ below, registry.Plain child := by
        rw [obtain_eq, if_neg (by simp [proper, title_nonempty])]
        cases found : registry.slot? (title name) with
        | none => exact ⟨[], rfl, nofun⟩
        | some slot =>
            cases slot with
            | logger number => exact absurd found (unknown number)
            | vacant below => exact ⟨below, rfl, settled.slots _ _ nofun found⟩
      -- the plain logger that is made is replaced at once, by one that hangs where it hangs
      obtain ⟨below, obtained, plain⟩ := makes
      obtain ⟨making, hangs⟩ := made_spec settled unknown plain
      rw [contextual_eq, obtained]
      generalize registry.made (title name) below = result at making hangs ⊢
      obtain ⟨number, made⟩ := result
      dsimp only at making hangs ⊢
      rw [if_neg (by simp [making.plain.2.2])]
      exact found_of_wrapping making.settled making.grown rfl hangs
        (fun asked different same => different (Option.some.inj same)) fun _ => unknown

/-! ## Levels -/

/-- The level in force on the way up: the first one that is set, else none at all. -/
inductive InForce (registry : Registry) : Option Nat → Int → Prop where
  | nowhere : InForce registry none inherited
  | own {number : Nat} (set : (registry.logger number).level ≠ inherited) :
      InForce registry (some number) (registry.logger number).level
  | above {number : Nat} {level : Int} (unset : (registry.logger number).level = inherited)
      (inForce : InForce registry (registry.logger number).parent level) :
      InForce registry (some number) level

theorem InForce.unique {place : Option Nat} {level level' : Int}
    (first : registry.InForce place level) (second : registry.InForce place level') :
    level = level' := by
  induction first with
  | nowhere =>
      cases second
      rfl
  | own set =>
      cases second with
      | own => rfl
      | above unset => exact absurd unset set
  | above unset _ ih =>
      cases second with
      | own set => exact absurd unset set
      | above _ second => exact ih second

/-- As many steps as there are loggers before a lasting one are enough to find its level. -/
theorem Settled.inForce_levelAbove (settled : registry.Settled busy) {steps : Nat}
    (enough : number < steps) (lasting : registry.Lasting number) :
    registry.InForce (some number) (registry.levelAbove steps (some number)) := by
  induction steps generalizing number with
  | zero => exact absurd enough (Nat.not_lt_zero number)
  | succ steps ih =>
      rw [levelAbove]
      split
      · next unset =>
          refine .above unset ?_
          cases hung : (registry.logger number).parent with
          | none =>
              rw [levelAbove]
              exact .nowhere
          | some parent =>
              -- parents were made before, so one step less is enough for them
              have context : (registry.logger number).hasContext = true := by
                refine lasting.resolve_left ?_
                rintro rfl
                rw [settled.topParent] at hung
                cases hung
              obtain ⟨before, above⟩ := settled.above number context parent hung
              exact ih (Nat.lt_of_lt_of_le before (Nat.le_of_lt_succ enough)) above
      · next set => exact .own set

theorem Settled.inForce_effectiveLevel (settled : registry.Settled busy)
    (lasting : registry.Lasting number) :
    registry.InForce (some number) (registry.effectiveLevel number) :=
  settled.inForce_levelAbove (Nat.lt_succ_of_lt (settled.lasting_lt lasting)) lasting

theorem InForce.extend (settled : registry.Settled busy) (grown : registry.Extends later)
    {place : Option Nat} {level : Int} (inForce : registry.InForce place level)
    (lasting : ∀ number, place = some number → registry.Lasting number) :
    later.InForce place level := by
  induction inForce with
  | nowhere => exact .nowhere
  | own set =>
      have same := grown.lasting _ (lasting _ rfl)
      rw [← same] at set ⊢
      exact .own set
  | @above number level unset _ ih =>
      have same := grown.lasting _ (lasting _ rfl)
      refine .above (same ▸ unset) ?_
      rw [same]
      refine ih fun parent hung => ?_
      rcases lasting number rfl with rfl | context
      · rw [settled.topParent] at hung
        cases hung
      · exact (settled.above number context parent hung).2

/-- The level in force for a lasting logger stays, whatever loggers are made. -/
theorem effectiveLevel_of_extends (settled : registry.Settled none) (grown : registry.Extends later)
    (settled' : later.Settled none) (lasting : registry.Lasting number) :
    later.effectiveLevel number = registry.effectiveLevel number := by
  have before : later.InForce (some number) (registry.effectiveLevel number) :=
    (settled.inForce_effectiveLevel lasting).extend settled grown fun _ same =>
      Option.some.inj same ▸ lasting
  exact (settled'.inForce_effectiveLevel (grown.still lasting)).unique before

/-- Whether the logger with context under a name takes records of a level. -/
def takes (registry : Registry) (name : String) (level : Int) : Bool :=
  let (number, registry) := registry.contextual name defaultLevel
  registry.isEnabled number level

def Knows (registry : Registry) (name : String) : Prop :=
  title name = topName ∨ ∃ number, registry.slot? (title name) = some (.logger number)

theorem Knows.extend (knows : registry.Knows name) (grown : registry.Extends later) :
    later.Knows name := by
  by_cases proper : title name = topName
  · exact Or.inl proper
  · obtain ⟨number, found⟩ := knows.resolve_left proper
    exact Or.inr ⟨number, grown.known _ number proper found⟩

theorem Found.knows {start : Registry} (found : Found start (title name) number registry) :
    registry.Knows name := by
  by_cases proper : title name = topName
  · exact Or.inl proper
  · exact Or.inr ⟨number, found.named proper⟩

/-- The top logger's name gets a new logger each time, at the level of the top logger. -/
theorem takes_top (settled : registry.Settled none) (top : title name = topName) (level : Int) :
    registry.takes name level =
      (decide (0 < level) && decide (raised (registry.logger 0).level defaultLevel ≤ level)) := by
  have found := contextual_found settled name defaultLevel
  have wrapped : ((registry.contextual name defaultLevel).2.logger
      (registry.contextual name defaultLevel).1).level =
        raised (registry.logger 0).level defaultLevel := by
    rw [contextual_eq, obtain_eq, if_pos (Or.inl top)]
    dsimp only
    rw [if_neg (by simp [settled.topPlain])]
    exact congrArg Logger.level (logger_add_self registry _)
  have set : raised (registry.logger 0).level defaultLevel ≠ inherited := by
    unfold raised
    split
    · decide
    · next other => exact fun unset => other (Or.inl unset)
  have inForce := found.settled.inForce_effectiveLevel (Or.inr found.context)
  have own : (registry.contextual name defaultLevel).2.InForce
      (some (registry.contextual name defaultLevel).1)
      (raised (registry.logger 0).level defaultLevel) := by
    rw [← wrapped] at set ⊢
    exact .own set
  unfold takes
  dsimp only
  rw [isEnabled, inForce.unique own]

theorem takes_known (settled : registry.Settled none) (proper : title name ≠ topName)
    (found : registry.slot? (title name) = some (.logger number)) (level : Int) :
    registry.takes name level = registry.isEnabled number level := by
  rw [takes, contextual_known settled proper found]

theorem takes_of_extends (settled : registry.Settled none) (grown : registry.Extends later)
    (settled' : later.Settled none) (knows : registry.Knows name) (level : Int) :
    later.takes name level = registry.takes name level := by
  by_cases proper : title name = topName
  · rw [takes_top settled proper, takes_top settled' proper, grown.lasting 0 (Or.inl rfl)]
  · obtain ⟨number, found⟩ := knows.resolve_left proper
    have lasting : registry.Lasting number := Or.inr (settled.slots _ _ nofun found)
    rw [takes_known settled proper found,
      takes_known settled' proper (grown.known _ number proper found), isEnabled, isEnabled,
      effectiveLevel_of_extends settled grown settled' lasting]

/-- Asking whether a logger takes a level makes the logger, which does not change the answer. -/
theorem takes_contextual (settled : registry.Settled none) (name : String) (level : Int) :
    (registry.contextual name defaultLevel).2.takes name level = registry.takes name level := by
  have found := contextual_found settled name defaultLevel
  by_cases proper : title name = topName
  · rw [takes_top settled proper, takes_top found.settled proper,
      found.grown.lasting 0 (Or.inl rfl)]
  · rw [takes_known found.settled proper (found.named proper)]
    rfl

/-! ## Configuring -/

def Ready (registry : Registry) : Prop :=
  ∀ entry ∈ configuredHandlers, ∃ number, registry.slot? entry.1.name = some (.logger number)

theorem configured_proper : ∀ entry ∈ configuredHandlers,
    ¬(entry.1.name = topName ∨ entry.1.name.isEmpty = true) := by
  decide

theorem Ready.extend (ready : registry.Ready) (grown : registry.Extends later) : later.Ready := by
  intro entry member
  obtain ⟨number, found⟩ := ready entry member
  have proper : entry.1.name ≠ topName := fun top => configured_proper entry member (Or.inl top)
  exact ⟨number, grown.known _ number proper found⟩

theorem Rehung.ready (rehung : registry.Rehung later) (ready : registry.Ready) : later.Ready := by
  intro entry member
  rw [slot?, rehung.slots]
  exact ready entry member

theorem rehung_foldl {α : Type} {items : List α} {f : Registry → α → Registry}
    (each : ∀ registry : Registry, registry.Ready → ∀ item ∈ items,
      registry.Rehung (f registry item))
    (ready : registry.Ready) : registry.Rehung (items.foldl f registry) := by
  induction items generalizing registry with
  | nil => exact .refl registry
  | cons item rest ih =>
      have first := each registry ready item List.mem_cons_self
      exact first.trans (ih (fun later ready other member =>
        each later ready other (List.mem_cons_of_mem _ member)) (first.ready ready))

theorem rehung_configureOne (ready : registry.Ready) {entry : Analysis.Channel × List Handler}
    (member : entry ∈ configuredHandlers) : registry.Rehung (registry.configureOne entry) := by
  obtain ⟨number, found⟩ := ready entry member
  rw [configureOne, obtain_eq, if_neg (configured_proper entry member), found]
  exact rehung_change registry number (fun _ => rfl) (Or.inr fun _ => rfl)

theorem rehung_reset (registry : Registry) (name : String) :
    registry.Rehung (registry.reset name) := by
  unfold reset
  split
  · exact rehung_change registry _ (fun _ => rfl) (Or.inr fun _ => rfl)
  · exact .refl registry

theorem rehung_configure (ready : registry.Ready) : registry.Rehung registry.configure := by
  have configured := rehung_foldl (f := configureOne)
    (fun _ ready _ member => rehung_configureOne ready member) ready
  refine (configured.trans ?_).trans (rehung_change _ 0 (fun _ => rfl) (Or.inr fun _ => rfl))
  exact rehung_foldl (f := reset) (fun later _ name _ => rehung_reset later name)
    (configured.ready ready)

end CondSat.Logging.Registry
