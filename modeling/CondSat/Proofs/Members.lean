import CondSat.Json.Value

/-! # Named values

Values are kept under names in lists of pairs, in the order the names were first used.  To
give a name a value is to change it where the name is, or to add it at the end; this shows
for that name and for no other, and removing a name does not show for others either. -/
set_option autoImplicit false
namespace CondSat.Members

variable {β : Type} {key other : String} {value : β} {members : List (String × β)}

/-- Give a name a value: in place where the name is there, at the end otherwise. -/
def put (key : String) (value : β) (members : List (String × β)) : List (String × β) :=
  if members.any (·.1 == key) then
    members.map fun member => if member.1 == key then (key, value) else member
  else members ++ [(key, value)]

theorem lookup_cons_of_ne (different : other ≠ key) (value : β) (members : List (String × β)) :
    ((key, value) :: members).lookup other = members.lookup other := by
  rw [List.lookup_cons, beq_eq_false_iff_ne.mpr different]

theorem lookup_put_of_ne (different : other ≠ key) (value : β) (members : List (String × β)) :
    (put key value members).lookup other = members.lookup other := by
  unfold put
  split
  · next known =>
      clear known
      induction members with
      | nil => rfl
      | cons member rest ih =>
          obtain ⟨name, stated⟩ := member
          by_cases same : name = key
          · subst same
            simpa [lookup_cons_of_ne different] using ih
          · rw [List.map_cons, if_neg (by simpa using same), List.lookup_cons, List.lookup_cons, ih]
  · rw [List.lookup_append, lookup_cons_of_ne different, List.lookup_nil, Option.or_none]

theorem lookup_filter_of_ne (different : other ≠ key) (members : List (String × β)) :
    (members.filter (·.1 != key)).lookup other = members.lookup other := by
  induction members with
  | nil => rfl
  | cons member rest ih =>
      obtain ⟨name, stated⟩ := member
      by_cases same : name = key
      · subst same
        simpa [lookup_cons_of_ne different] using ih
      · rw [List.filter_cons_of_pos (by simpa using same), List.lookup_cons, List.lookup_cons, ih]

theorem lookup_filter_self (key : String) (members : List (String × β)) :
    (members.filter (·.1 != key)).lookup key = none := by
  rw [List.lookup_eq_none_iff]
  intro member kept
  have different : member.1 ≠ key := by simpa using (List.mem_filter.mp kept).2
  exact bne_iff_ne.mpr (Ne.symm different)

theorem ne_of_lookup_eq_none (unknown : members.lookup key = none) {member : String × β}
    (found : member ∈ members) : member.1 ≠ key := by
  have apart := List.lookup_eq_none_iff.mp unknown member found
  exact Ne.symm (bne_iff_ne.mp apart)

theorem lookup_of_forall (known : ∃ member ∈ members, member.1 = key)
    (agree : ∀ member ∈ members, member.1 = key → member.2 = value) :
    members.lookup key = some value := by
  induction members with
  | nil =>
      obtain ⟨member, found, -⟩ := known
      cases found
  | cons member rest ih =>
      obtain ⟨name, stated⟩ := member
      by_cases same : name = key
      · have first : stated = value := agree (name, stated) List.mem_cons_self same
        rw [same, first, List.lookup_cons_self]
      · obtain ⟨found, member, named⟩ := known
        have later : found ∈ rest := (List.mem_cons.mp member).resolve_left fun first =>
          same (by rw [← named, first])
        rw [lookup_cons_of_ne (Ne.symm same)]
        exact ih ⟨found, later, named⟩ fun other inside =>
          agree other (List.mem_cons_of_mem _ inside)

theorem value_of_mem_put {member : String × β} (found : member ∈ put key value members)
    (named : member.1 = key) : member.2 = value := by
  unfold put at found
  split at found
  · obtain ⟨before, -, rfl⟩ := List.mem_map.mp found
    split at named
    · next same => rw [if_pos same]
    · next apart => exact absurd (beq_iff_eq.mpr named) apart
  · next unknown =>
      rcases List.mem_append.mp found with old | new
      · refine absurd ?_ unknown
        exact List.any_eq_true.mpr ⟨member, old, beq_iff_eq.mpr named⟩
      · rw [List.mem_singleton.mp new]

theorem key_of_mem_put {member : String × β} (found : member ∈ put key value members) :
    member.1 = key ∨ ∃ old ∈ members, old.1 = member.1 := by
  unfold put at found
  split at found
  · obtain ⟨before, inside, rfl⟩ := List.mem_map.mp found
    split
    · exact Or.inl rfl
    · exact Or.inr ⟨before, inside, rfl⟩
  · rcases List.mem_append.mp found with old | new
    · exact Or.inr ⟨member, old, rfl⟩
    · rw [List.mem_singleton.mp new]
      exact Or.inl rfl

theorem exists_mem_put (key : String) (value : β) (members : List (String × β)) :
    ∃ member ∈ put key value members, member.1 = key := by
  unfold put
  split
  · next known =>
      obtain ⟨member, found, same⟩ := List.any_eq_true.mp known
      exact ⟨_, List.mem_map_of_mem found, by rw [if_pos same]⟩
  · exact ⟨(key, value), by simp, rfl⟩

theorem lookup_put_self (key : String) (value : β) (members : List (String × β)) :
    (put key value members).lookup key = some value :=
  lookup_of_forall (exists_mem_put key value members) fun _ => value_of_mem_put

def putAll (members known : List (String × β)) : List (String × β) :=
  members.foldl (fun known m => put m.1 m.2 known) known

theorem lookup_putAll (agree : ∀ member ∈ members, member.1 = key → member.2 = value)
    {known : List (String × β)}
    (stated : known.lookup key = some value ∨ ∃ member ∈ members, member.1 = key) :
    (putAll members known).lookup key = some value := by
  induction members generalizing known with
  | nil => exact stated.resolve_right fun ⟨_, found, _⟩ => nomatch found
  | cons member rest ih =>
      refine ih (fun other inside => agree other (List.mem_cons_of_mem _ inside)) ?_
      by_cases same : member.1 = key
      · rw [← same, lookup_put_self, agree member List.mem_cons_self same]
        exact Or.inl rfl
      · rw [lookup_put_of_ne (Ne.symm same)]
        refine stated.imp_right ?_
        rintro ⟨found, inside, named⟩
        refine ⟨found, (List.mem_cons.mp inside).resolve_left ?_, named⟩
        rintro rfl
        exact same named

theorem key_of_mem_putAll {known : List (String × β)} {member : String × β}
    (found : member ∈ putAll members known) :
    ∃ old ∈ known ++ members, old.1 = member.1 := by
  induction members generalizing known with
  | nil => exact ⟨member, by simpa [putAll] using found, rfl⟩
  | cons first rest ih =>
      obtain ⟨old, inside, named⟩ := ih found
      rcases List.mem_append.mp inside with before | later
      · rcases key_of_mem_put before with same | ⟨older, known, same⟩
        · exact ⟨first, by simp, same ▸ named⟩
        · exact ⟨older, by simp [known], same.trans named⟩
      · exact ⟨old, by simp [later], named⟩

end CondSat.Members
