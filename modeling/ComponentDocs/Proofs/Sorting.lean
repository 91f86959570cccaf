import ComponentDocs.Text.Loose
import Mathlib.Data.List.Sort

namespace ComponentDocs

theorem CodePoint.rank_injective : Function.Injective rank := by
  intro a b same
  cases a <;> cases b <;> simp only [rank] at same
  · rw [Char.toNat_inj.mp (Nat.eq_of_mul_eq_mul_left Nat.two_pos same)]
  · omega
  · omega
  · rw [Nat.eq_of_mul_eq_mul_left Nat.two_pos (Nat.add_right_cancel same)]

instance : Std.IsLinearOrder CodePoint where
  le_refl point := Nat.le_refl point.rank
  le_trans _ _ _ := Nat.le_trans
  le_antisymm _ _ below above := CodePoint.rank_injective (Nat.le_antisymm below above)
  le_total first second := Nat.le_total first.rank second.rank

instance : Std.LawfulOrderLT CodePoint where
  lt_iff _ _ := Nat.lt_iff_le_and_not_ge

variable {α β : Type} [LE β] [DecidableLE β] [Std.IsLinearOrder β] (key : α → β)

theorem key_le_trans (a b c : α) (first : decide (key a ≤ key b) = true) (second : decide (key b ≤ key c) = true) :
    decide (key a ≤ key c) = true :=
  decide_eq_true (Std.le_trans (of_decide_eq_true first) (of_decide_eq_true second))

theorem key_le_total (a b : α) : (decide (key a ≤ key b) || decide (key b ≤ key a)) = true := by
  rw [Bool.or_eq_true, decide_eq_true_eq, decide_eq_true_eq]
  exact Std.le_total

theorem pairwise_mergeSort_key (items : List α) :
    (items.mergeSort fun a b => decide (key a ≤ key b)).Pairwise fun a b => key a ≤ key b :=
  (List.pairwise_mergeSort (key_le_trans key) (key_le_total key) items).imp of_decide_eq_true

theorem mergeSort_eq_of_perm (injective : Function.Injective key) {items items' : List α} (perm : items.Perm items') :
    (items.mergeSort fun a b => decide (key a ≤ key b)) = items'.mergeSort fun a b => decide (key a ≤ key b) := by
  have sorted := List.mergeSort_perm items fun a b => decide (key a ≤ key b)
  have sorted' := List.mergeSort_perm items' fun a b => decide (key a ≤ key b)
  have same := (sorted.trans perm).trans sorted'.symm
  refine List.Perm.eq_of_pairwise ?_ (pairwise_mergeSort_key key items) (pairwise_mergeSort_key key items') same
  intro a b _ _ below above
  exact injective (Std.le_antisymm below above)

/-- Where the key does not decide, the order before the sort does. -/
theorem pairwise_mergeSort_stable [LT β] [Std.LawfulOrderLT β] {precedes : α → α → Prop} {items : List α}
    (ordered : items.Pairwise precedes) :
    (items.mergeSort fun a b => decide (key a ≤ key b)).Pairwise fun a b =>
      key a < key b ∨ key a = key b ∧ precedes a b := by
  let le (a b : α) : Bool := decide (key a ≤ key b)
  -- the items are sorted together with their positions, which break ties
  have sorted : (items.zipIdx.mergeSort (List.zipIdxLE le)).Pairwise fun a b => List.zipIdxLE le a b :=
    List.pairwise_mergeSort (List.zipIdxLE_trans (key_le_trans key)) (List.zipIdxLE_total (key_le_total key)) _
  have perm := List.mergeSort_perm items.zipIdx (List.zipIdxLE le)
  have distinct : (items.zipIdx.mergeSort (List.zipIdxLE le)).Pairwise fun a b => a.2 ≠ b.2 := by
    have positions : (items.zipIdx.map (·.2)).Nodup := by
      rw [List.zipIdx_map_snd]
      exact List.nodup_range'
    exact List.pairwise_map.mp ((perm.map _).nodup_iff.mpr positions)
  rw [← List.mergeSort_zipIdx, List.pairwise_map]
  refine (sorted.and distinct).imp_of_mem ?_
  intro ⟨a, i⟩ ⟨b, j⟩ here there ⟨below, apart⟩
  have placed := List.mk_mem_zipIdx_iff_getElem?.mp (perm.mem_iff.mp here)
  have placed' := List.mk_mem_zipIdx_iff_getElem?.mp (perm.mem_iff.mp there)
  simp only [List.zipIdxLE, le, decide_eq_true_eq] at below
  split at below
  · rename_i atMost
    split at below
    · rename_i atLeast
      have positions : i ≤ j := of_decide_eq_true below
      have earlier : i < j := by omega
      obtain ⟨inside, rfl⟩ := List.getElem?_eq_some_iff.mp placed
      obtain ⟨inside', rfl⟩ := List.getElem?_eq_some_iff.mp placed'
      have first := List.pairwise_iff_getElem.mp ordered i j inside inside' earlier
      exact .inr ⟨Std.le_antisymm atMost atLeast, first⟩
    · rename_i notAbove
      exact .inl (Std.not_le.mp notAbove)
  · cases below

/-- A sort that can be evaluated step by step gives the same. -/
theorem mergeSort_eq_insertionSort (items : List α) :
    (items.mergeSort fun a b => decide (key a ≤ key b)) = items.insertionSort fun a b => key a ≤ key b := by
  induction items with
  | nil => simp
  | cons item rest ih =>
    obtain ⟨front, back, sorted, sortedRest, above⟩ :=
      List.mergeSort_cons (key_le_trans key) (key_le_total key) item rest
    have ordered := pairwise_mergeSort_key key (item :: rest)
    rw [sorted] at ordered
    have below : ∀ other ∈ back, key item ≤ key other :=
      (List.pairwise_cons.mp (List.pairwise_append.mp ordered).2.1).1
    have passed : ∀ other ∈ front, decide (¬ key item ≤ key other) = true := by
      intro other member
      rw [decide_not]
      exact above other member
    rw [List.insertionSort_cons, ← ih, sorted, sortedRest, List.orderedInsert_eq_take_drop,
      List.takeWhile_append_of_pos passed, List.dropWhile_append_of_pos passed]
    cases back with
    | nil => simp
    | cons next more =>
      have stops : decide (¬ key item ≤ key next) = false :=
        decide_eq_false (not_not_intro (below next List.mem_cons_self))
      rw [List.takeWhile_cons, List.dropWhile_cons, stops, if_neg Bool.false_ne_true, if_neg Bool.false_ne_true,
        List.append_nil]

end ComponentDocs
