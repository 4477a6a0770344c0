import Mathlib.Data.List.Basic
import Mathlib.Data.List.Induction
import LineTables.Record

/-!
# Members of records

A look-up finds a member, and in a record without a repeated name every member is found. Writing pairs
adds no members but these; the last pair of each name is the one that is found, so that writing them once
more changes nothing. Pairs without a repeated name make up a record as they are.
-/

set_option autoImplicit false

namespace LineTables

namespace Record

variable {α : Type}

theorem mem_of_get? {r : Record α} {name : Text} {value : α} (h : r.get? name = some value) :
    (name, value) ∈ r := by
  induction r with
  | nil => simp [get?] at h
  | cons pair rest ih =>
    obtain ⟨key, old⟩ := pair
    rw [get?] at h
    split at h
    · rename_i hk
      cases h
      simp [hk]
    · exact List.mem_cons_of_mem _ (ih h)

theorem get?_of_mem {r : Record α} (hn : r.names.Nodup) {name : Text} {value : α}
    (h : (name, value) ∈ r) : r.get? name = some value := by
  induction r with
  | nil => simp at h
  | cons pair rest ih =>
    obtain ⟨key, old⟩ := pair
    have hnodup : key ∉ Record.names rest ∧ (Record.names rest).Nodup := List.nodup_cons.1 hn
    rcases List.mem_cons.1 h with h | h
    · cases h
      simp [get?]
    · have hk : key ≠ name := by
        rintro rfl
        exact hnodup.1 (List.mem_map_of_mem (f := (·.1)) h)
      rw [get?, if_neg hk]
      exact ih hnodup.2 h

theorem mem_put {r : Record α} {name : Text} {value : α} {pair : Text × α}
    (h : pair ∈ r.put name value) : pair = (name, value) ∨ pair ∈ r := by
  induction r with
  | nil => exact Or.inl (by simpa [put] using h)
  | cons head rest ih =>
    obtain ⟨key, old⟩ := head
    rw [put] at h
    split at h
    · rename_i hk
      rcases List.mem_cons.1 h with h | h
      · exact Or.inl (hk ▸ h)
      · exact Or.inr (List.mem_cons_of_mem _ h)
    · rcases List.mem_cons.1 h with h | h
      · exact Or.inr (h ▸ List.mem_cons_self)
      · exact (ih h).imp_right (List.mem_cons_of_mem _)

theorem mem_putAll {pairs : List (Text × α)} {r : Record α} {pair : Text × α}
    (h : pair ∈ r.putAll pairs) : pair ∈ r ∨ pair ∈ pairs := by
  induction pairs generalizing r with
  | nil => exact Or.inl h
  | cons first pairs ih =>
    rcases ih h with h | h
    · rcases Record.mem_put h with rfl | h
      · exact Or.inr List.mem_cons_self
      · exact Or.inl h
    · exact Or.inr (List.mem_cons_of_mem first h)

theorem mem_names_put {name other : Text} {r : Record α} (value : α)
    (h : name = other ∨ name ∈ r.names) : name ∈ (r.put other value).names := by
  by_cases hm : other ∈ r.names
  · rw [names_put_of_mem hm]
    rcases h with rfl | h
    · exact hm
    · exact h
  · rw [names_put_of_not_mem hm, List.mem_append, List.mem_singleton]
    exact h.symm

theorem mem_names_putAll {pairs : List (Text × α)} {r : Record α} {name : Text}
    (h : name ∈ pairs.map (·.1) ∨ name ∈ r.names) : name ∈ (r.putAll pairs).names := by
  induction pairs generalizing r with
  | nil => exact h.resolve_left List.not_mem_nil
  | cons first pairs ih =>
    apply ih
    rcases h with h | h
    · rcases List.mem_cons.1 h with h | h
      · exact Or.inr (mem_names_put first.2 (Or.inl h))
      · exact Or.inl h
    · exact Or.inr (mem_names_put first.2 (Or.inr h))

theorem putAll_append (r : Record α) (pairs more : List (Text × α)) :
    r.putAll (pairs ++ more) = (r.putAll pairs).putAll more :=
  List.foldl_append

theorem get?_putAll_of_not_mem {pairs : List (Text × α)} {name : Text}
    (h : name ∉ pairs.map (·.1)) (r : Record α) : (r.putAll pairs).get? name = r.get? name := by
  induction pairs generalizing r with
  | nil => rfl
  | cons first pairs ih =>
    rw [List.map_cons, List.mem_cons, not_or] at h
    exact (ih h.2 (r.put first.1 first.2)).trans (get?_put_of_ne h.1 first.2 r)

theorem get?_putAll_of_last {before after : List (Text × α)} {name : Text}
    (h : name ∉ after.map (·.1)) (value : α) (r : Record α) :
    (r.putAll (before ++ (name, value) :: after)).get? name = some value := by
  rw [putAll_append]
  exact (get?_putAll_of_not_mem h _).trans (get?_put_self name value _)

theorem get?_putAll_of_mem {pairs : List (Text × α)} {name : Text} (h : name ∈ pairs.map (·.1))
    (r s : Record α) : (r.putAll pairs).get? name = (s.putAll pairs).get? name := by
  induction pairs generalizing r s with
  | nil => cases h
  | cons first pairs ih =>
    by_cases hlater : name ∈ pairs.map (·.1)
    · exact ih hlater (r.put first.1 first.2) (s.put first.1 first.2)
    · obtain rfl : name = first.1 := (List.mem_cons.1 h).resolve_right hlater
      have hfirst : ∀ r : Record α,
          (r.putAll ([] ++ (first.1, first.2) :: pairs)).get? first.1 = some first.2 :=
        get?_putAll_of_last hlater first.2
      exact (hfirst r).trans (hfirst s).symm

theorem names_putAll_of_subset {pairs : List (Text × α)} {r : Record α}
    (h : ∀ name ∈ pairs.map (·.1), name ∈ r.names) : (r.putAll pairs).names = r.names := by
  induction pairs generalizing r with
  | nil => rfl
  | cons first pairs ih =>
    obtain ⟨hfirst, hlater⟩ := List.forall_mem_cons.1 h
    have hnames := names_put_of_mem hfirst first.2
    rw [← hnames]
    exact ih (hnames ▸ hlater)

theorem ext {r s : Record α} (hn : r.names.Nodup) (h : r.names = s.names)
    (hg : ∀ name, r.get? name = s.get? name) : r = s := by
  have hs : s.names.Nodup := h ▸ hn
  have hlength : r.length = s.length := by
    simpa [names] using congrArg List.length h
  apply List.ext_getElem hlength
  intro i hr hi
  have hname : (r[i]).1 = (s[i]).1 := by
    have hmap := List.getElem_of_eq h (i := i) (by simpa [names] using hr)
    simpa [names] using hmap
  have hfound : s.get? (s[i]).1 = some (r[i]).2 := by
    rw [← hg, ← hname]
    exact get?_of_mem hn (List.getElem_mem hr)
  have hvalue : some (r[i]).2 = some (s[i]).2 :=
    hfound.symm.trans (get?_of_mem hs (List.getElem_mem hi))
  exact Prod.ext hname (Option.some.inj hvalue)

theorem putAll_putAll {r : Record α} (hn : r.names.Nodup) (pairs : List (Text × α)) :
    (r.putAll pairs).putAll pairs = r.putAll pairs := by
  have hnames : ((r.putAll pairs).putAll pairs).names = (r.putAll pairs).names :=
    names_putAll_of_subset fun name hname => mem_names_putAll (Or.inl hname)
  apply ext (nodup_names_putAll (nodup_names_putAll hn pairs) pairs) hnames
  intro name
  by_cases hwritten : name ∈ pairs.map (·.1)
  · exact get?_putAll_of_mem hwritten _ _
  · exact get?_putAll_of_not_mem hwritten _

theorem put_of_get? {r : Record α} {name : Text} {value : α} (h : r.get? name = some value) :
    r.put name value = r := by
  induction r with
  | nil => cases h
  | cons head r ih =>
    obtain ⟨key, old⟩ := head
    rw [get?] at h
    rw [put]
    split
    · rename_i hkey
      rw [if_pos hkey] at h
      cases h
      rfl
    · rename_i hkey
      rw [if_neg hkey] at h
      rw [ih h]

theorem put_of_not_mem {r : Record α} {name : Text} (h : name ∉ r.names) (value : α) :
    r.put name value = r ++ [(name, value)] := by
  induction r with
  | nil => rfl
  | cons head r ih =>
    obtain ⟨key, old⟩ := head
    have hne : key ≠ name := fun he => h (by simp [names, he])
    have hrest : name ∉ Record.names r := fun hm => h (List.mem_cons_of_mem key hm)
    rw [put, if_neg hne, ih hrest]
    rfl

theorem putAll_of_nodup {r : Record α} {fields : List (Text × α)}
    (h : (Record.names (r ++ fields)).Nodup) : Record.putAll r fields = r ++ fields := by
  induction fields generalizing r with
  | nil => rw [List.append_nil]; rfl
  | cons field fields ih =>
    have hnew : field.1 ∉ r.names := by
      rw [Record.names, List.map_append, List.nodup_append] at h
      intro hm
      exact h.2.2 field.1 hm field.1 (by simp) rfl
    have happ : r ++ field :: fields = r ++ [field] ++ fields := by simp
    show Record.putAll (r.put field.1 field.2) fields = _
    rw [put_of_not_mem hnew, happ]
    exact ih (happ ▸ h)

theorem ofPairs_concat (pairs : List (Text × α)) (pair : Text × α) :
    ofPairs (pairs ++ [pair]) = (ofPairs pairs).put pair.1 pair.2 :=
  putAll_append [] pairs [pair]

theorem names_ofPairs (pairs : List (Text × α)) :
    (ofPairs pairs).names = (pairs.map (·.1)).eraseDups := by
  induction pairs using List.reverseRecOn with
  | nil => rfl
  | append_singleton pairs pair ih =>
    rw [ofPairs_concat, List.map_append, List.map_singleton, List.eraseDups_append, ← ih]
    by_cases hm : pair.1 ∈ (ofPairs pairs).names
    · have hold : pair.1 ∈ pairs.map (·.1) := List.mem_eraseDups.1 (ih ▸ hm)
      rw [names_put_of_mem hm]
      simp [List.removeAll, hold]
    · have hnew : pair.1 ∉ pairs.map (·.1) := fun h => hm (ih ▸ List.mem_eraseDups.2 h)
      rw [names_put_of_not_mem hm]
      simp [List.removeAll, hnew, List.eraseDups_cons]

theorem get?_ofPairs (pairs : List (Text × α)) (name : Text) :
    (ofPairs pairs).get? name = (pairs.filter (·.1 == name)).getLast?.map (·.2) := by
  induction pairs using List.reverseRecOn with
  | nil => rfl
  | append_singleton pairs pair ih =>
    rw [ofPairs_concat, List.filter_append]
    by_cases h : name = pair.1
    · rw [h, get?_put_self]
      simp
    · rw [get?_put_of_ne h, ih]
      simp [Ne.symm h]

theorem filterMap_get?_names {r : Record α} (hn : r.names.Nodup) :
    r.names.filterMap (fun name => r.get? name) = r.values := by
  rw [names, List.filterMap_map, values, List.filterMap_eq_map_iff_forall_eq_some]
  intro pair hm
  exact get?_of_mem hn hm

theorem ofPairs_of_nodup {fields : List (Text × α)}
    (h : (Record.names fields).Nodup) : Record.ofPairs fields = fields :=
  putAll_of_nodup (r := []) h

end Record
end LineTables
