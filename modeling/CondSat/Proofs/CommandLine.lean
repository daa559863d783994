import CondSat.Command.Usage
import CondSat.Proofs.Documents

/-! # Values on the command line

However options are spelled, shortened and written together, a value that is kept
belongs to an option of the grammar and is one that the option takes. -/
set_option autoImplicit false
namespace CondSat.Command

/-- The values an option takes. -/
def OptionKind.Takes : OptionKind → String → Prop
  | .wholeNumber, text => ∃ value, Text.integer? text = .ok value
  | .choice values, text => text ∈ values
  | _, _ => True

namespace Grammar

/-- A value of the grammar: its title is that of an option that takes it. -/
def Admits (grammar : Grammar) (entry : String × String) : Prop :=
  ∃ spec ∈ grammar.options, spec.title = entry.1 ∧ spec.kind.Takes entry.2

def Kept (grammar : Grammar) (parsed : Parsed) : Prop :=
  ∀ entry ∈ parsed.values, grammar.Admits entry

def Knows (grammar : Grammar) (item : Item) : Prop :=
  ∀ spec spelling value, item.2 = .option spec spelling value → spec ∈ grammar.options

variable {grammar : Grammar}

/-! ## Classing words -/

theorem mem_options_of_mem_spellings {entry : String × OptionSpec}
    (member : entry ∈ grammar.spellings) : entry.2 ∈ grammar.options := by
  obtain ⟨spec, listed, spelled⟩ := List.mem_flatMap.mp member
  obtain ⟨spelling, -, rfl⟩ := List.mem_map.mp spelled
  exact listed

theorem mem_options_of_lookup {word : String} {spec : OptionSpec}
    (found : grammar.spellings.lookup word = some spec) : spec ∈ grammar.options := by
  obtain ⟨before, after, split, -⟩ := List.lookup_eq_some_iff.mp found
  have member : (word, spec) ∈ grammar.spellings := by simp [split]
  exact mem_options_of_mem_spellings member

theorem Kept.apply {parsed result : Parsed} {spec : OptionSpec} {value : String}
    (kept : grammar.Kept parsed) (listed : spec ∈ grammar.options)
    (applied : grammar.apply parsed spec value = .ok result) : grammar.Kept result := by
  have added : spec.kind.Takes value → ∀ entry ∈ parsed.values ++ [(spec.title, value)],
      grammar.Admits entry := by
    intro takes entry member
    rcases List.mem_append.mp member with old | new
    · exact kept entry old
    · obtain rfl := List.mem_singleton.mp new
      exact ⟨spec, listed, rfl, takes⟩
  unfold Grammar.apply at applied
  dsimp only at applied
  cases kind : spec.kind <;> rw [kind] at applied added <;> dsimp only at applied
  case help | version => cases applied
  case toggle | word =>
    cases applied
    exact added trivial
  case wholeNumber =>
    split at applied
    · next number read =>
      cases applied
      exact added ⟨number, read⟩
    · cases applied
  case choice choices =>
    split at applied
    · next offered =>
      cases applied
      exact added (List.contains_iff_mem.mp offered)
    · cases applied

theorem Kept.applyAll {specs : List OptionSpec} {parsed result : Parsed}
    (kept : grammar.Kept parsed) (listed : ∀ spec ∈ specs, spec ∈ grammar.options)
    (applied : grammar.applyAll parsed specs = .ok result) : grammar.Kept result := by
  induction specs generalizing parsed with
  | nil =>
      cases applied
      exact kept
  | cons spec rest ih =>
      obtain ⟨middle, first, applied⟩ := bind_ok applied
      exact ih (kept.apply (listed spec (by simp)) first)
        (fun other member => listed other (by simp [member])) applied

/-- Letters that are written together are options of the grammar. -/
theorem mem_options_of_together {spec : OptionSpec} {spelling : String} {left : List Char}
    {specs : List OptionSpec} {last : Option (OptionSpec × String)}
    (listed : spec ∈ grammar.options)
    (read : grammar.together spec spelling left = .ok (specs, last)) :
    (∀ other ∈ specs, other ∈ grammar.options) ∧
    ∀ other text, last = some (other, text) → other ∈ grammar.options := by
  induction left generalizing spec spelling specs with
  | nil =>
      cases read
      exact ⟨by simp [listed], nofun⟩
  | cons c left ih =>
      rw [together] at read
      split at read
      · cases read
        refine ⟨nofun, ?_⟩
        rintro _ _ ⟨⟩
        exact listed
      · dsimp only at read
        split at read
        · next found =>
          obtain ⟨⟨others, end?⟩, further, read⟩ := bind_ok read
          cases read
          obtain ⟨inside, final⟩ := ih (mem_options_of_lookup found) further
          refine ⟨?_, final⟩
          intro other member
          rcases List.mem_cons.mp member with rfl | later
          · exact listed
          · exact inside other later
        · cases read

theorem Kept.consumeOption {parsed result : Parsed} {spec : OptionSpec} {spelling : String}
    {value : Option String} {rest left : List Item} (kept : grammar.Kept parsed)
    (listed : spec ∈ grammar.options)
    (consumed : grammar.consumeOption parsed spec spelling value rest = .ok (result, left)) :
    grammar.Kept result ∧ left ⊆ rest := by
  unfold Grammar.consumeOption at consumed
  extract_lets following at consumed
  -- an option that may take its value from the next item, after some that take none
  have kept_following : ∀ (before : List OptionSpec) (spec : OptionSpec),
      (∀ other ∈ before, other ∈ grammar.options) → spec ∈ grammar.options →
      following before spec = .ok (result, left) → grammar.Kept result ∧ left ⊆ rest := by
    intro before spec earlier listed consumed
    dsimp only [following] at consumed
    split at consumed
    · obtain ⟨middle, applied, consumed⟩ := bind_ok consumed
      cases consumed
      refine ⟨kept.applyAll ?_ applied, List.Subset.refl _⟩
      intro other member
      rcases List.mem_append.mp member with old | new
      · exact earlier other old
      · exact List.mem_singleton.mp new ▸ listed
    · split at consumed
      · obtain ⟨middle, applied, consumed⟩ := bind_ok consumed
        obtain ⟨final, given, consumed⟩ := bind_ok consumed
        cases consumed
        exact ⟨(kept.applyAll earlier applied).apply listed given, List.subset_cons_self _ _⟩
      · cases consumed
  split at consumed
  · exact kept_following [] spec (by simp) listed consumed
  · split at consumed
    · obtain ⟨middle, applied, consumed⟩ := bind_ok consumed
      cases consumed
      exact ⟨kept.apply listed applied, List.Subset.refl _⟩
    · split at consumed
      · cases consumed
      · obtain ⟨⟨specs, last⟩, read, consumed⟩ := bind_ok consumed
        obtain ⟨inside, final⟩ := mem_options_of_together listed read
        dsimp only at consumed
        split at consumed
        · obtain ⟨middle, applied, consumed⟩ := bind_ok consumed
          obtain ⟨ended, given, consumed⟩ := bind_ok consumed
          cases consumed
          exact ⟨(kept.applyAll inside applied).apply (final _ _ rfl) given, List.Subset.refl _⟩
        · refine kept_following _ _
            (fun other member => inside other (List.mem_of_mem_dropLast member)) ?_ consumed
          cases found : specs.getLast? with
          | none => exact listed
          | some other => exact inside other (List.mem_of_getLast? found)

/-! ## Whole command lines -/

theorem operand?_subset {items rest : List Item} {words : List String}
    (taken : grammar.operand? items = some (words, rest)) : rest ⊆ items := by
  unfold operand? at taken
  dsimp only at taken
  split at taken
  · next word after split =>
    have within : (word, Reading.operand) :: after ⊆ items :=
      split ▸ (List.dropWhile_sublist _).subset
    split at taken
    · cases taken
      exact List.nil_subset _
    · cases taken
      intro item member
      exact within (List.mem_cons_of_mem _ ((List.dropWhile_sublist _).subset member))
  · cases taken

theorem Kept.consume {steps : Nat} {items : List Item} {parsed result : Parsed}
    (kept : grammar.Kept parsed) (known : ∀ item ∈ items, grammar.Knows item)
    (consumed : grammar.consume parsed steps items = .ok result) : grammar.Kept result := by
  fun_induction Grammar.consume grammar parsed steps items with
  | case1 => 
      cases consumed
      exact kept
  | case2 parsed steps =>
      cases consumed
      exact kept
  | case3 parsed steps _ spec spelling value rest ih =>
      obtain ⟨⟨middle, left⟩, optioned, consumed⟩ := bind_ok consumed
      have listed := known _ (List.mem_cons_self ..) spec spelling value rfl
      obtain ⟨kept, within⟩ := kept.consumeOption listed optioned
      exact ih middle left kept
        (fun item member => known item (List.mem_cons_of_mem _ (within member))) consumed
  | case4 parsed steps word rest ih =>
      exact ih kept (fun item member => known item (by simp [member])) consumed
  | case5 parsed steps items taken words rest takes _ _ _ ih =>
      have within : rest ⊆ items := by
        dsimp only [taken] at takes
        split at takes
        · exact operand?_subset takes
        · cases takes
      exact ih kept (fun item member => known item (within member)) consumed
  | case6 parsed steps items taken skip _ _ _ _ ih =>
      exact ih kept
        (fun item member => known item ((List.dropWhile_sublist _).subset member)) consumed

theorem Kept.value? {parsed : Parsed} {title text : String} (kept : grammar.Kept parsed)
    (given : parsed.value? title = some text) : grammar.Admits (title, text) := by
  obtain ⟨⟨found, _⟩, search, rfl⟩ := Option.map_eq_some_iff.mp given
  have titled : found = title := by simpa using List.find?_some search
  exact titled ▸ kept _ (List.mem_reverse.mp (List.mem_of_find?_eq_some search))

end Grammar

end CondSat.Command
