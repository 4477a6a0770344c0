import LineTables.Text.Basic

/-!
# Sorted texts

Sorting gives an ascending list, and there is only one ascending list of given texts: the order in
which they came is forgotten.
-/

set_option autoImplicit false

namespace LineTables.Text

def Ascending (ts : List Text) : Prop := ts.Pairwise (fun t u => ¬ u < t)

theorem not_lt_trans {t u v : Text} (htu : ¬ u < t) (huv : ¬ v < u) : ¬ v < t :=
  List.not_lt.2 (List.le_trans (List.not_lt.1 htu) (List.not_lt.1 huv))

theorem insertSorted_ascending {ts : List Text} (h : Ascending ts) (t : Text) :
    Ascending (insertSorted t ts) := by
  induction ts with
  | nil => simp [insertSorted, Ascending]
  | cons u ts ih =>
    obtain ⟨hu, hts⟩ := List.pairwise_cons.1 h
    rw [insertSorted]
    by_cases hlt : u < t
    · rw [if_pos hlt, Ascending, List.pairwise_cons]
      refine ⟨?_, ih hts⟩
      intro v hv
      rcases List.mem_cons.1 ((insertSorted_perm t ts).mem_iff.1 hv) with rfl | hv
      · exact List.lt_asymm hlt
      · exact hu v hv
    · rw [if_neg hlt, Ascending, List.pairwise_cons]
      refine ⟨?_, h⟩
      intro v hv
      rcases List.mem_cons.1 hv with rfl | hv
      · exact hlt
      · exact not_lt_trans hlt (hu v hv)

theorem sorted_ascending (ts : List Text) : Ascending (sorted ts) := by
  induction ts with
  | nil => exact List.Pairwise.nil
  | cons t ts ih => exact insertSorted_ascending ih t

theorem sorted_strict {ts : List Text} (h : ts.Nodup) : (sorted ts).Pairwise (· < ·) := by
  have hnodup : (sorted ts).Nodup := (sorted_perm ts).nodup_iff.2 h
  apply ((sorted_ascending ts).and hnodup).imp
  rintro t u ⟨hnot, hne⟩
  exact gt_of_not_lt_of_ne hnot hne.symm

theorem eq_of_perm_of_ascending {ts us : List Text} (h : ts.Perm us) (ht : Ascending ts)
    (hu : Ascending us) : ts = us := by
  apply h.eq_of_pairwise _ ht hu
  intro t u _ _ htu hut
  by_cases heq : t = u
  · exact heq
  · exact absurd (gt_of_not_lt_of_ne htu (Ne.symm heq)) hut

theorem sorted_eq_of_perm {ts us : List Text} (h : ts.Perm us) : sorted ts = sorted us :=
  eq_of_perm_of_ascending ((sorted_perm ts).trans (h.trans (sorted_perm us).symm))
    (sorted_ascending ts) (sorted_ascending us)

theorem sorted_eq_mergeSort (ts : List Text) :
    sorted ts = ts.mergeSort (fun t u => !decide (u < t)) := by
  have htrans : ∀ t u v : Text, !decide (u < t) → !decide (v < u) → !decide (v < t) := by
    intro t u v
    simpa using not_lt_trans
  have htotal : ∀ t u : Text, !decide (u < t) || !decide (t < u) := by
    intro t u
    by_cases h : u < t
    · simp [List.lt_asymm h]
    · simp [h]
  have hascending : Ascending (ts.mergeSort (fun t u => !decide (u < t))) :=
    (List.pairwise_mergeSort htrans htotal ts).imp (by simp)
  exact eq_of_perm_of_ascending ((sorted_perm ts).trans (List.mergeSort_perm ts _).symm)
    (sorted_ascending ts) hascending

end LineTables.Text
