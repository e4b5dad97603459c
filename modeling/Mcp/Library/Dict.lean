import Mathlib.Data.List.AList
import Mathlib.Data.Multiset.Filter
import Mathlib.Data.Multiset.MapFold

/-! Finite maps in which a key occurs once, and the multiset of values they hold. -/

/-- A finite map from `K` to `V`; the order of its entries means nothing. -/
abbrev Dict (K V : Type*) := AList (fun _ : K => V)

namespace Dict

variable {K V : Type*} {d : Dict K V} {k k' : K} {v v' : V}

/-- The values in the order of the entries. -/
def list (d : Dict K V) : List V := d.entries.map (fun e => e.2)

/-- The values of all entries. -/
def values (d : Dict K V) : Multiset V := list d

/-- The entries that satisfy `p`. -/
def filter (p : K → V → Bool) (d : Dict K V) : Dict K V :=
  ⟨d.entries.filter (fun e => p e.1 e.2), d.nodupKeys.sublist List.filter_sublist⟩

@[simp] theorem values_empty : values (∅ : Dict K V) = 0 := rfl

theorem values_filter_add_not (p : K → V → Bool) (d : Dict K V) :
    values (filter p d) + values (filter (fun k v => !p k v) d) = values d := by
  simp only [values, list, filter, ← Multiset.map_coe, ← Multiset.map_add]
  congr 1
  simpa using Multiset.filter_add_not (fun e : Sigma (fun _ : K => V) => p e.1 e.2 = true)
    (d.entries : Multiset _)

theorem filter_filter (p q : K → V → Bool) (d : Dict K V) :
    filter p (filter q d) = filter (fun k v => p k v && q k v) d :=
  AList.ext List.filter_filter

/-- `order` names every key of `d` once. -/
structure Lists (order : List K) (d : Dict K V) : Prop where
  nodup : order.Nodup
  mem_iff : ∀ k, k ∈ order ↔ k ∈ d

theorem Lists.perm {order : List K} (h : Lists order d) : order.Perm d.keys :=
  (List.perm_ext_iff_of_nodup h.nodup d.nodupKeys).mpr h.mem_iff

variable [DecidableEq K]

/-- Insertion that leaves an entry already under the key alone. -/
def tryEmplace (k : K) (v : V) (d : Dict K V) : Dict K V :=
  if k ∈ d then d else d.insert k v

theorem values_insert (h : k ∉ d) : values (d.insert k v) = v ::ₘ values d := by
  rw [values, list, AList.entries_insert_of_notMem h]
  rfl

theorem values_erase (h : d.lookup k = some v) : values d = v ::ₘ values (d.erase k) := by
  have hk : k ∈ d.entries.keys :=
    AList.mem_keys.mpr (AList.lookup_isSome.mp (by simp [h]))
  obtain ⟨w, l₁, l₂, -, hd, he⟩ := List.exists_of_kerase hk
  have hw : w = v := by
    have hm : (⟨k, w⟩ : Sigma (fun _ : K => V)) ∈ d.entries := by simp [hd]
    have hl := AList.mem_lookup_iff.mpr hm
    rw [h] at hl
    exact (Option.mem_some_iff.mp hl).symm
  subst w
  have hrest : (d.erase k).entries = l₁ ++ l₂ := he
  rw [values, values, list, list, hd, hrest, List.map_append, List.map_append, List.map_cons,
    ← Multiset.coe_add, ← Multiset.coe_add, ← Multiset.cons_coe, Multiset.add_cons]

theorem mem_values_of_lookup (h : d.lookup k = some v) : v ∈ values d := by
  rw [values_erase h]
  exact Multiset.mem_cons_self v _

theorem lookup_tryEmplace_self (h : k ∉ d) : (tryEmplace k v d).lookup k = some v := by
  simp [tryEmplace, h]

theorem lookup_tryEmplace_of_mem (h : k ∈ d) : tryEmplace k v d = d := by
  simp [tryEmplace, h]

theorem lookup_tryEmplace_ne (h : k' ≠ k) : (tryEmplace k v d).lookup k' = d.lookup k' := by
  unfold tryEmplace
  split
  · rfl
  · exact AList.lookup_insert_ne h

theorem lookup_tryEmplace_of_lookup (h : d.lookup k = some v) :
    (tryEmplace k' v' d).lookup k = some v := by
  by_cases hk : k = k'
  · subst k'
    have hm : k ∈ d := AList.lookup_isSome.mp (by simp [h])
    rw [lookup_tryEmplace_of_mem hm, h]
  · rw [lookup_tryEmplace_ne hk, h]

theorem lookup_of_lookup_tryEmplace (h : (tryEmplace k v d).lookup k' = some v') :
    (k' = k ∧ v' = v ∧ d.lookup k = none) ∨ d.lookup k' = some v' := by
  by_cases hm : k ∈ d
  · rw [lookup_tryEmplace_of_mem hm] at h
    exact Or.inr h
  · by_cases hk : k' = k
    · subst k'
      rw [lookup_tryEmplace_self hm] at h
      exact Or.inl ⟨rfl, (Option.some.inj h).symm, AList.lookup_eq_none.mpr hm⟩
    · rw [lookup_tryEmplace_ne hk] at h
      exact Or.inr h

theorem lookup_filter (p : K → V → Bool) (h : d.lookup k = some v) (hp : p k v = true) :
    (filter p d).lookup k = some v :=
  AList.mem_lookup_iff.mpr (List.mem_filter.mpr ⟨AList.mem_lookup_iff.mp h, hp⟩)

theorem lookup_of_lookup_filter {p : K → V → Bool} (h : (filter p d).lookup k = some v) :
    d.lookup k = some v ∧ p k v = true := by
  have he := List.mem_filter.mp (AList.mem_lookup_iff.mp h)
  exact ⟨AList.mem_lookup_iff.mpr he.1, he.2⟩

theorem mem_tryEmplace : k' ∈ tryEmplace k v d ↔ k' = k ∨ k' ∈ d := by
  unfold tryEmplace
  split
  · next h =>
    refine ⟨.inr, ?_⟩
    rintro (rfl | h')
    · exact h
    · exact h'
  · exact AList.mem_insert d

theorem mem_iff_lookup : k ∈ d ↔ ∃ v, d.lookup k = some v := by
  rw [← AList.lookup_isSome, Option.isSome_iff_exists]

theorem mem_filter {p : K → V → Bool} :
    k ∈ filter p d ↔ ∃ v, d.lookup k = some v ∧ p k v = true := by
  rw [mem_iff_lookup]
  constructor
  · rintro ⟨v, h⟩
    exact ⟨v, lookup_of_lookup_filter h⟩
  · rintro ⟨v, h, hp⟩
    exact ⟨v, lookup_filter p h hp⟩

theorem lookup_of_lookup_erase (h : (d.erase k).lookup k' = some v) : d.lookup k' = some v := by
  by_cases hk : k' = k
  · subst k'
    simp at h
  · rwa [AList.lookup_erase_ne hk] at h

theorem lookup_of_lookup_insert (h : (d.insert k v).lookup k' = some v') :
    (k' = k ∧ v' = v) ∨ (k' ≠ k ∧ d.lookup k' = some v') := by
  by_cases hk : k' = k
  · subst k'
    simp only [AList.lookup_insert, Option.some.injEq] at h
    exact Or.inl ⟨rfl, h.symm⟩
  · exact Or.inr ⟨hk, by rwa [AList.lookup_insert_ne hk] at h⟩

theorem filter_congr {p q : K → V → Bool} (h : ∀ k v, d.lookup k = some v → p k v = q k v) :
    filter p d = filter q d := by
  apply AList.ext
  apply List.filter_congr
  rintro ⟨k, v⟩ hm
  exact h k v (AList.mem_lookup_iff.mpr hm)

theorem erase_eq_filter (k : K) (d : Dict K V) : d.erase k = filter (fun k' _ => k' ≠ k) d := by
  apply AList.ext
  obtain ⟨entries, hnodup⟩ := d
  change entries.kerase k = entries.filter fun e => e.1 ≠ k
  induction entries with
  | nil => rfl
  | cons e entries ih =>
    obtain ⟨hfirst, hrest⟩ := List.nodupKeys_cons.mp hnodup
    by_cases hk : k = e.1
    · have hother : ∀ e' ∈ entries, e'.1 ≠ k := by
        intro e' hm he
        exact hfirst (hk ▸ he ▸ List.mem_map_of_mem hm)
      rw [List.kerase_cons_eq hk, List.filter_cons_of_neg (by simp [hk]),
        List.filter_eq_self.mpr (by simpa using hother)]
    · rw [List.kerase_cons_ne hk, List.filter_cons_of_pos (by simp [Ne.symm hk]), ih hrest]

theorem filterMap_lookup_keys (d : Dict K V) : d.keys.filterMap d.lookup = list d := by
  have hlookup : ∀ e ∈ d.entries, d.lookup e.1 = some e.2 := by
    rintro ⟨k, v⟩ he
    exact AList.mem_lookup_iff.mpr he
  rw [AList.keys, List.keys, List.filterMap_map, list, ← List.filterMap_eq_map]
  exact List.filterMap_congr hlookup

/-- Looked up in that order, each value is found once. -/
theorem Lists.perm_values {order : List K} (h : Lists order d) :
    (order.filterMap d.lookup).Perm (list d) := by
  rw [← filterMap_lookup_keys]
  exact h.perm.filterMap d.lookup

end Dict
