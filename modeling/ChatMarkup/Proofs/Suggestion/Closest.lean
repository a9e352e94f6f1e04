/-
  ChatMarkup/Proofs/Suggestion/Closest.lean
  =========================================
  **The suggestions are the best ones** — by the distance that a name has, and by the name
  itself among equals, whatever the order of the available names and however often they occur
  (`best_closest`).

  Only neighbours are compared when repetitions are dropped.  That is enough because the names
  are sorted by rank at that time, and the rank has the name in it: what stands between two
  equal names has their rank, so it is that name again.
-/
import ChatMarkup.Proofs.Suggestion.Distance
import ChatMarkup.Suggestion.Ranking

namespace ChatMarkup

/-! ### The order of texts -/

theorem Text.atMost_iff {a b : List Char} : atMost a b = true ↔ ¬b < a := by
  induction a generalizing b with
  | nil => simp [atMost]
  | cons c a ih =>
    cases b with
    | nil => simp [atMost]
    | cons d b =>
      rw [atMost, List.cons_lt_cons_iff]
      split
      · rename_i same
        simp [same, ih]
      · rename_i other
        rw [Nat.blt_eq, or_iff_left fun both => other both.1.symm, not_lt]
        exact (le_iff_lt_or_eq.trans (or_iff_left other)).symm

theorem Text.nameAtMost_iff {a b : String} : nameAtMost a b = true ↔ a ≤ b := by
  rw [nameAtMost, atMost_iff, ← String.lt_iff_toList_lt, not_lt]

/-! ### Neighbours that are equal -/

section
variable {α β : Type}

theorem eraseRepsBy_loop (same : α → α → Bool) (a : α) (rest kept : List α) :
    List.eraseRepsBy.loop same a rest kept =
      kept.reverse ++ List.eraseRepsBy.loop same a rest [] := by
  induction rest generalizing a kept with
  | nil => simp [List.eraseRepsBy.loop]
  | cons b rest ih =>
    rw [List.eraseRepsBy.loop, List.eraseRepsBy.loop]
    split
    · exact ih a kept
    · rw [ih b (a :: kept), ih b [a], List.reverse_cons, List.append_assoc]
      rfl

theorem eraseRepsBy_cons_cons (same : α → α → Bool) (a b : α) (rest : List α) :
    (a :: b :: rest).eraseRepsBy same =
      if same a b then (a :: rest).eraseRepsBy same
      else a :: (b :: rest).eraseRepsBy same := by
  rw [List.eraseRepsBy, List.eraseRepsBy.loop]
  split
  · rename_i equal
    rw [if_pos equal, List.eraseRepsBy]
  · rename_i different
    rw [different, if_neg Bool.false_ne_true, eraseRepsBy_loop]
    rfl

variable [DecidableEq β]

theorem eraseReps_cons_cons (a b : β) (rest : List β) :
    (a :: b :: rest).eraseReps =
      if a = b then (a :: rest).eraseReps else a :: (b :: rest).eraseReps := by
  simp only [List.eraseReps, eraseRepsBy_cons_cons, beq_iff_eq]

/-- Entries are compared by a part of them. -/
theorem map_eraseRepsBy (f : α → β) (entries : List α) :
    (entries.eraseRepsBy fun a b => f a == f b).map f = (entries.map f).eraseReps := by
  match entries with
  | [] => rfl
  | [_] => rfl
  | a :: b :: rest =>
    rw [eraseRepsBy_cons_cons, List.map_cons, List.map_cons, eraseReps_cons_cons]
    by_cases same : f a = f b
    · rw [if_pos (beq_iff_eq.mpr same), if_pos same, map_eraseRepsBy f (a :: rest), List.map_cons]
    · rw [if_neg (by simpa using same), if_neg same, List.map_cons, map_eraseRepsBy f (b :: rest),
        List.map_cons]
termination_by entries.length

theorem mem_eraseReps_cons {a x : β} {rest : List β} :
    x ∈ (a :: rest).eraseReps ↔ x ∈ a :: rest := by
  induction rest generalizing a with
  | nil => rfl
  | cons b rest ih =>
    rw [eraseReps_cons_cons]
    split
    · rename_i same
      rw [ih, same]
      simp
    · rw [List.mem_cons, ih, ← List.mem_cons]

@[simp] theorem mem_eraseReps {x : β} {names : List β} : x ∈ names.eraseReps ↔ x ∈ names := by
  cases names with
  | nil => rfl
  | cons a rest => exact mem_eraseReps_cons

/-- In a list that is sorted by something that tells its members apart, equal members are
    neighbours. -/
theorem pairwise_eraseReps {γ : Type} [LinearOrder γ] {key : β → γ} (injective : key.Injective)
    {names : List β} (sorted : names.Pairwise fun a b => key a ≤ key b) :
    names.eraseReps.Pairwise fun a b => key a < key b := by
  match names, sorted with
  | [], _ => exact .nil
  | [a], _ => exact List.pairwise_singleton _ a
  | a :: b :: rest, sorted =>
    obtain ⟨first, others⟩ := List.pairwise_cons.mp sorted
    rw [eraseReps_cons_cons]
    split
    · have without : (a :: rest).Pairwise fun a b => key a ≤ key b :=
        sorted.sublist ((List.sublist_cons_self b rest).cons_cons a)
      exact pairwise_eraseReps injective without
    · rename_i other
      refine List.pairwise_cons.mpr ⟨?_, pairwise_eraseReps injective others⟩
      -- the keys ascend and differ, and what follows is no smaller than the second
      have step : key a < key b :=
        lt_of_le_of_ne (first b List.mem_cons_self) fun same => other (injective same)
      intro x member
      rcases List.mem_cons.mp (mem_eraseReps.mp member) with rfl | behind
      · exact step
      · exact step.trans_le ((List.pairwise_cons.mp others).1 x behind)
termination_by names.length

end

/-! ### The front of a sorted list -/

/-- What is not at the front of a sorted list comes behind a full front. -/
theorem before_of_not_mem_take {α : Type} {precedes : α → α → Prop} {names : List α}
    (sorted : names.Pairwise precedes) {x : α} (member : x ∈ names) {count : Nat}
    (left : x ∉ names.take count) :
    (names.take count).length = count ∧ ∀ y ∈ names.take count, precedes y x := by
  rw [← List.take_append_drop count names] at sorted member
  have behind : x ∈ names.drop count := (List.mem_append.mp member).resolve_left left
  refine ⟨?_, fun y front => (List.pairwise_append.mp sorted).2.2 y front x behind⟩
  have some := List.length_pos_of_mem behind
  rw [List.length_drop] at some
  rw [List.length_take]
  omega

/-! ### Suggestions -/

namespace Suggestion

variable {name : String} {available available' : List String}

theorem rank_injective (name : String) : (rank name).Injective := by
  intro known known' same
  exact congrArg (fun r => (ofLex r).2) same

theorem ranksBefore_iff {a b : Nat × String} : ranksBefore a b = true ↔ toLex a ≤ toLex b := by
  rw [Prod.Lex.toLex_le_toLex, ranksBefore, Bool.or_eq_true, Bool.and_eq_true, Nat.blt_eq,
    beq_iff_eq, Text.nameAtMost_iff]

theorem isNear_iff {known : String} :
    Nat.ble (editDistance name.toList known.toList) (cutoff name.toList) = true ↔
      IsNear name known := by
  rw [Nat.ble_eq, IsNear, cutoff, String.length_toList]
  rcases Nat.lt_or_ge 3 name.length with long | short
  · rw [if_pos long, if_neg (Nat.not_le.mpr long)]
  · rw [if_neg (Nat.not_lt.mpr short), if_pos short]

def ranked (name : String) (available : List String) : List String :=
  (candidates name available).map Prod.snd

theorem closest_eq (name : String) (available : List String) :
    closest name available = (ranked name available).take 3 :=
  List.map_take

theorem ranked_eq (name : String) (available : List String) :
    ranked name available =
      ((available.filter fun known =>
          Nat.ble (editDistance name.toList known.toList) (cutoff name.toList)).mergeSort
        fun known later => decide (rank name known ≤ rank name later)).eraseReps := by
  rw [ranked, candidates, map_eraseRepsBy, List.filter_map, ← List.map_mergeSort, List.map_map]
  · exact congrArg List.eraseReps (List.map_id _)
  · intro known _ later _
    rw [Bool.eq_iff_iff, decide_eq_true_iff, ranksBefore_iff]
    rfl

theorem mem_ranked {known : String} :
    known ∈ ranked name available ↔ known ∈ available ∧ IsNear name known := by
  rw [ranked_eq, mem_eraseReps, List.mem_mergeSort, List.mem_filter, isNear_iff]

theorem pairwise_ranked (name : String) (available : List String) :
    (ranked name available).Pairwise fun known later => rank name known < rank name later := by
  rw [ranked_eq]
  refine pairwise_eraseReps (rank_injective name) ?_
  refine (List.pairwise_mergeSort ?_ ?_ _).imp of_decide_eq_true
  · simpa using fun a b c => le_trans
  · simpa using fun a b => le_total (rank name a) (rank name b)

theorem nodup_ranked (name : String) (available : List String) : (ranked name available).Nodup :=
  (pairwise_ranked name available).imp fun before same => before.ne (congrArg _ same)

theorem best_take_ranked (name : String) (available : List String) :
    Best name available ((ranked name available).take 3) := by
  have front := (ranked name available).take_subset 3
  have ascending := (pairwise_ranked name available).sublist (List.take_sublist 3 _)
  exact {
    few := List.length_take_le 3 _
    distinct := (nodup_ranked name available).sublist (List.take_sublist 3 _)
    known := fun known member => (mem_ranked.mp (front member)).1
    near := fun known member => (mem_ranked.mp (front member)).2
    ascending
    omitted := fun known member near =>
      before_of_not_mem_take (pairwise_ranked name available) (mem_ranked.mpr ⟨member, near⟩) }

/-- The order of the available names and their repetitions do not show. -/
theorem ranked_congr (same : ∀ known, known ∈ available' ↔ known ∈ available) :
    ranked name available' = ranked name available := by
  have sorted := pairwise_ranked name available
  have sorted' := pairwise_ranked name available'
  refine List.Perm.eq_of_pairwise ?_ sorted' sorted ?_
  · intro known later _ _ before after
    exact absurd before after.asymm
  · rw [List.perm_ext_iff_of_nodup (nodup_ranked name available') (nodup_ranked name available)]
    intro known
    rw [mem_ranked, mem_ranked, same]

/-- **The suggestions are the best ones**, where the distance is the least number of edits.
    Other lists of the same names have the same suggestions. -/
theorem best_closest (name : String) (available : List String) :
    Best name available (closest name available) ∧
      (∀ known : String, Text.LeastEdits name.toList known.toList
        (editDistance name.toList known.toList)) ∧
      ∀ available', (∀ known, known ∈ available' ↔ known ∈ available) →
        closest name available' = closest name available := by
  refine ⟨?_, fun known => leastEdits_editDistance _ _, fun available' same => ?_⟩
  · rw [closest_eq]
    exact best_take_ranked name available
  · rw [closest_eq, closest_eq, ranked_congr same]

/-- Of two names that are two edits away the first is the third suggestion, the other is left
    out. -/
theorem closest_shuffled :
    let names := ["green", "grey", "gray", "red"]
    let shuffled := ["red", "grey", "green", "gray", "grey"]
    (∀ known, known ∈ shuffled ↔ known ∈ names) ∧
      closest "gren" names = ["green", "grey", "gray"] ∧
      closest "gren" shuffled = ["green", "grey", "gray"] := by
  intro names shuffled
  have same : ∀ known, known ∈ shuffled ↔ known ∈ names := by
    intro known
    simp only [names, shuffled, List.mem_cons, List.not_mem_nil]
    tauto
  have first : closest "gren" names = ["green", "grey", "gray"] := by
    rw [closest, candidates, List.mergeSort_of_pairwise (by decide +kernel)]
    decide +kernel
  obtain ⟨-, -, order⟩ := best_closest "gren" names
  exact ⟨same, first, (order shuffled same).trans first⟩

end Suggestion

end ChatMarkup
