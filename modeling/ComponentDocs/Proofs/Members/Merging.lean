import ComponentDocs.Syntax.Members

namespace ComponentDocs

variable {κ : Type}

def memberNames (members : List (Member κ)) : List String :=
  members.filterMap fun member => member.name.map (·.text)

/-- The members of a list whose names come up neither in front of the list nor earlier in it, and those without a
name. -/
def firstOccurrences (before : List (Member κ)) : List (Member κ) → List (Member κ)
  | [] => []
  | member :: rest =>
    if member.occursIn before then firstOccurrences (before ++ [member]) rest
    else member :: firstOccurrences (before ++ [member]) rest

theorem mem_memberNames {text : String} {members : List (Member κ)} :
    text ∈ memberNames members ↔ ∃ member ∈ members, ∃ name ∈ member.name, name.text = text := by
  simp [memberNames]

theorem memberNames_append (members others : List (Member κ)) :
    memberNames (members ++ others) = memberNames members ++ memberNames others :=
  List.filterMap_append

theorem memberNames_flatMap {α : Type} (items : List α) (f : α → List (Member κ)) (text : String) :
    text ∈ memberNames (items.flatMap f) ↔ ∃ item ∈ items, text ∈ memberNames (f item) := by
  simp only [mem_memberNames, List.mem_flatMap]
  constructor
  · rintro ⟨member, ⟨item, listed, inside⟩, named⟩
    exact ⟨item, listed, member, inside, named⟩
  · rintro ⟨item, listed, member, inside, named⟩
    exact ⟨member, ⟨item, listed, inside⟩, named⟩

theorem Member.occursIn_iff {member : Member κ} {members : List (Member κ)} :
    member.occursIn members = true ↔ ∃ name ∈ member.name, name.text ∈ memberNames members := by
  rw [Member.occursIn]
  cases member.name with
  | none => simp
  | some name => simp [mem_memberNames, Option.any_eq_true]

theorem firstOccurrences_congr {before before' : List (Member κ)}
    (same : ∀ text, text ∈ memberNames before ↔ text ∈ memberNames before') (members : List (Member κ)) :
    firstOccurrences before members = firstOccurrences before' members := by
  induction members generalizing before before' with
  | nil => rfl
  | cons member rest ih =>
    have here : member.occursIn before = member.occursIn before' := by
      rw [Bool.eq_iff_iff, Member.occursIn_iff, Member.occursIn_iff]
      simp only [same]
    have later : firstOccurrences (before ++ [member]) rest = firstOccurrences (before' ++ [member]) rest := by
      apply ih
      intro text
      rw [memberNames_append, memberNames_append, List.mem_append, List.mem_append, same]
    rw [firstOccurrences, firstOccurrences, here, later]

theorem absorb_cons (members : List (Member κ)) (member : Member κ) (rest : List (Member κ)) :
    absorb members (member :: rest) =
      if member.occursIn members then absorb members rest else absorb (members ++ [member]) rest := by
  rw [absorb, List.foldl_cons]
  split <;> rfl

theorem absorb_append (members inherited others : List (Member κ)) :
    absorb members (inherited ++ others) = absorb (absorb members inherited) others :=
  List.foldl_append

theorem memberNames_snoc_of_occurs {member : Member κ} {members : List (Member κ)} (occurs : member.occursIn members)
    (text : String) : text ∈ memberNames (members ++ [member]) ↔ text ∈ memberNames members := by
  obtain ⟨name, present, listed⟩ := Member.occursIn_iff.mp occurs
  have named : member.name = some name := present
  rw [memberNames_append, List.mem_append]
  constructor
  · intro either
    rcases either with before | new
    · exact before
    · have same : text = name.text := by simpa [memberNames, named] using new
      rw [same]
      exact listed
  · exact .inl

theorem absorb_eq_append (members inherited : List (Member κ)) :
    absorb members inherited = members ++ firstOccurrences members inherited := by
  induction inherited generalizing members with
  | nil => exact (List.append_nil members).symm
  | cons member rest ih =>
    rw [absorb_cons, firstOccurrences]
    by_cases occurs : member.occursIn members
    · rw [if_pos occurs, if_pos occurs, ih, firstOccurrences_congr (memberNames_snoc_of_occurs occurs)]
    · rw [if_neg occurs, if_neg occurs, ih, List.append_assoc, List.singleton_append]

theorem mem_memberNames_absorb {text : String} {members inherited : List (Member κ)} :
    text ∈ memberNames (absorb members inherited) ↔ text ∈ memberNames members ∨ text ∈ memberNames inherited := by
  induction inherited generalizing members with
  | nil => simp [absorb, memberNames]
  | cons member rest ih =>
    have split : memberNames (member :: rest) = memberNames [member] ++ memberNames rest :=
      memberNames_append [member] rest
    rw [absorb_cons, split, List.mem_append, ← or_assoc, ← List.mem_append, ← memberNames_append]
    by_cases occurs : member.occursIn members
    · rw [if_pos occurs, ih, memberNames_snoc_of_occurs occurs]
    · rw [if_neg occurs, ih]

/-- Merging a list that was merged before is merging its parts: what the first merge leaves out would be left out
anyway. -/
theorem absorb_absorb (members own inherited : List (Member κ)) :
    absorb members (absorb own inherited) = absorb members (own ++ inherited) := by
  induction inherited generalizing own with
  | nil => rw [List.append_nil]; rfl
  | cons member rest ih =>
    rw [absorb_cons]
    by_cases occurs : member.occursIn own
    · obtain ⟨name, present, listed⟩ := Member.occursIn_iff.mp occurs
      have occursThere : member.occursIn (absorb members own) :=
        Member.occursIn_iff.mpr ⟨name, present, mem_memberNames_absorb.mpr (.inr listed)⟩
      rw [if_pos occurs, ih, absorb_append, absorb_append, absorb_cons, if_pos occursThere]
    · rw [if_neg occurs, ih, List.append_assoc, List.singleton_append]

theorem firstOccurrences_fresh {before members : List (Member κ)} {text : String}
    (listed : text ∈ memberNames (firstOccurrences before members)) : text ∉ memberNames before := by
  induction members generalizing before with
  | nil => cases listed
  | cons member rest ih =>
    have later : text ∈ memberNames (firstOccurrences (before ++ [member]) rest) → text ∉ memberNames before := by
      intro inRest inFront
      apply ih inRest
      rw [memberNames_append]
      exact List.mem_append_left _ inFront
    rw [firstOccurrences] at listed
    split at listed
    · exact later listed
    · rename_i fresh
      obtain ⟨other, inside, name, present, same⟩ := mem_memberNames.mp listed
      rcases List.mem_cons.mp inside with rfl | inRest
      · intro inFront
        exact fresh (Member.occursIn_iff.mpr ⟨name, present, same ▸ inFront⟩)
      · exact later (mem_memberNames.mpr ⟨other, inRest, name, present, same⟩)

theorem firstOccurrences_nodup (before members : List (Member κ)) :
    (memberNames (firstOccurrences before members)).Nodup := by
  induction members generalizing before with
  | nil => exact List.nodup_nil
  | cons member rest ih =>
    rw [firstOccurrences]
    split
    · exact ih _
    · cases named : member.name with
      | none =>
        have silent : memberNames (member :: firstOccurrences (before ++ [member]) rest) =
            memberNames (firstOccurrences (before ++ [member]) rest) := by simp [memberNames, named]
        rw [silent]
        exact ih _
      | some name =>
        have spoken : memberNames (member :: firstOccurrences (before ++ [member]) rest) =
            name.text :: memberNames (firstOccurrences (before ++ [member]) rest) := by simp [memberNames, named]
        rw [spoken]
        apply List.nodup_cons.mpr
        constructor
        · intro again
          apply firstOccurrences_fresh again
          simp [memberNames, named]
        · exact ih _

end ComponentDocs
