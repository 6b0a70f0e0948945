import Mathlib
import Tether.Xpc.Object

/-!
# Entries and their keys

Pairs that are inserted one after the other have different keys in the end, and pairs whose keys
are different stay as they are. Where the keys are different, the value under a key is the one
that stands beside it.

* `nodup_keys_ofList`, `ofList_of_nodup`: keys that are all different;
* `get?_eq_some_iff`: the value under a key.
-/

namespace Tether.Entries

variable {α : Type} {entries : Entries α} {pairs : List (String × α)} {key : String} {value : α}

/-! ### Inserting -/

theorem mem_keys_insert {k : String} :
    k ∈ (entries.insert key value).keys ↔ k ∈ entries.keys ∨ k = key := by
  induction entries with
  | nil => simp [Entries.insert, Entries.keys]
  | cons e entries ih =>
    simp only [Entries.keys] at ih
    rw [Entries.insert]
    split
    · rename_i heq
      subst heq
      simp only [Entries.keys, List.map_cons, List.mem_cons]
      tauto
    · simp only [Entries.keys, List.map_cons, List.mem_cons, ih]
      tauto

theorem nodup_keys_insert (h : entries.keys.Nodup) : (entries.insert key value).keys.Nodup := by
  induction entries with
  | nil => simp [Entries.insert, Entries.keys]
  | cons e entries ih =>
    have h' : e.1 ∉ Entries.keys entries ∧ (Entries.keys entries).Nodup := List.nodup_cons.1 h
    rw [Entries.insert]
    split
    · exact h
    · rename_i hne
      refine List.nodup_cons.2 ⟨?_, ih h'.2⟩
      intro hmem
      rcases mem_keys_insert.1 hmem with hmem | heq
      · exact h'.1 hmem
      · exact hne heq

/-- An entry is the new one or an old one. -/
theorem mem_insert {e : String × α} (h : e ∈ entries.insert key value) :
    e ∈ entries ∨ e = (key, value) := by
  induction entries with
  | nil => simpa [Entries.insert] using h
  | cons e' entries ih =>
    rw [Entries.insert] at h
    split at h
    · rename_i heq
      rcases List.mem_cons.1 h with rfl | hmem
      · exact .inr (by rw [← heq])
      · exact .inl (List.mem_cons_of_mem _ hmem)
    · rcases List.mem_cons.1 h with rfl | hmem
      · exact .inl List.mem_cons_self
      · exact (ih hmem).imp_left (List.mem_cons_of_mem _)

theorem length_insert_le : (entries.insert key value).length ≤ entries.length + 1 := by
  induction entries with
  | nil => simp [Entries.insert]
  | cons e entries ih =>
    rw [Entries.insert]
    split
    · simp
    · simpa using ih

/-- A key that is new goes to the end. -/
theorem insert_of_notMem (h : key ∉ entries.keys) :
    entries.insert key value = entries ++ [(key, value)] := by
  induction entries with
  | nil => rfl
  | cons e entries ih =>
    simp only [Entries.keys, List.map_cons, List.mem_cons, not_or] at h
    rw [Entries.insert, if_neg (Ne.symm h.1), ih h.2, List.cons_append]

/-! ### Many pairs -/

/-- Inserting one more pair. -/
theorem ofList_append_singleton (p : String × α) :
    ofList (pairs ++ [p]) = (ofList pairs).insert p.1 p.2 := by
  rw [ofList, List.foldl_append]
  rfl

/-- However often keys are repeated, they are all different in the end. -/
theorem nodup_keys_ofList (pairs : List (String × α)) : (ofList pairs).keys.Nodup := by
  induction pairs using List.reverseRecOn with
  | nil => exact List.nodup_nil
  | append_singleton pairs p ih =>
    rw [ofList_append_singleton]
    exact nodup_keys_insert ih

theorem mem_of_mem_ofList {e : String × α} (h : e ∈ ofList pairs) : e ∈ pairs := by
  induction pairs using List.reverseRecOn with
  | nil => exact h
  | append_singleton pairs p ih =>
    rw [ofList_append_singleton] at h
    rcases mem_insert h with h | rfl
    · exact List.mem_append_left _ (ih h)
    · exact List.mem_append_right _ (List.mem_singleton.2 rfl)

theorem length_ofList_le (pairs : List (String × α)) : (ofList pairs).length ≤ pairs.length := by
  induction pairs using List.reverseRecOn with
  | nil => exact le_rfl
  | append_singleton pairs p ih =>
    rw [ofList_append_singleton, List.length_append]
    exact le_trans length_insert_le (Nat.add_le_add_right ih 1)

/-- Keys that are all different stay as they are. -/
theorem ofList_of_nodup (h : entries.keys.Nodup) : ofList entries = entries := by
  induction entries using List.reverseRecOn with
  | nil => rfl
  | append_singleton entries e ih =>
    rw [Entries.keys, List.map_append, List.map_singleton, List.nodup_append] at h
    have hnew : e.1 ∉ Entries.keys entries := fun hmem => h.2.2 _ hmem e.1 (by simp) rfl
    rw [ofList_append_singleton, ih h.1]
    exact insert_of_notMem hnew

/-! ### Looking up -/

theorem get?_cons (k : String) (a : α) (entries : Entries α) (key : String) :
    Entries.get? ((k, a) :: entries) key = if key = k then some a else entries.get? key := by
  rw [Entries.get?, List.lookup_cons]
  split
  · next heq => rw [if_pos (beq_iff_eq.1 heq)]
  · next hne => rw [if_neg (by simpa using hne)]; rfl

theorem get?_of_notMem (h : key ∉ entries.keys) : entries.get? key = none := by
  induction entries with
  | nil => rfl
  | cons e entries ih =>
    simp only [Entries.keys, List.map_cons, List.mem_cons, not_or] at h
    rw [get?_cons, if_neg h.1, ih h.2]

/-- Under a key there is what stands beside it. -/
theorem get?_eq_some_iff (h : entries.keys.Nodup) :
    entries.get? key = some value ↔ (key, value) ∈ entries := by
  induction entries with
  | nil => simp [Entries.get?]
  | cons e entries ih =>
    have h' : e.1 ∉ Entries.keys entries ∧ (Entries.keys entries).Nodup := List.nodup_cons.1 h
    rw [get?_cons, List.mem_cons]
    by_cases hkey : key = e.1
    · subst hkey
      have hnew : (e.1, value) ∉ entries := fun hmem =>
        h'.1 (List.mem_map.2 ⟨_, hmem, rfl⟩)
      simp only [if_true, Option.some.injEq, hnew, or_false, Prod.ext_iff, true_and]
      exact eq_comm
    · simp only [hkey, if_false, ih h'.2, Prod.ext_iff, false_and, false_or]

end Tether.Entries
