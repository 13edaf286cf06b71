import Mathlib

/-!
# Association lists as dictionaries

A dictionary is a list of keys with values in which no key comes twice; only
what `lookup` finds matters. `ofKeys` lists a function on some keys.
-/
namespace Nucleo.Assoc

variable {K V W : Type} [DecidableEq K]

theorem lookup_of_mem {d : List (K × V)} (hd : (d.map Prod.fst).Nodup) {key : K} {v : V} (h : (key, v) ∈ d) :
    d.lookup key = some v := by
  induction d with
  | nil => cases h
  | cons kv d ih =>
    obtain ⟨k, v'⟩ := kv
    rw [List.map_cons, List.nodup_cons] at hd
    rcases List.mem_cons.1 h with he | hmem
    · cases he
      simp
    · have hne : (key == k) = false := by
        rw [beq_eq_false_iff_ne]
        rintro rfl
        exact hd.1 (List.mem_map.2 ⟨_, hmem, rfl⟩)
      rw [List.lookup_cons, hne]
      exact ih hd.2 hmem

theorem mem_of_lookup {d : List (K × V)} {key : K} {v : V} (h : d.lookup key = some v) : (key, v) ∈ d := by
  obtain ⟨l₁, l₂, rfl, -⟩ := List.lookup_eq_some_iff.1 h
  simp

theorem lookup_map (g : V → W) (d : List (K × V)) (key : K) :
    (d.map fun (k, v) => (k, g v)).lookup key = (d.lookup key).map g := by
  induction d with
  | nil => rfl
  | cons kv d ih =>
    obtain ⟨k, v⟩ := kv
    rw [List.map_cons, List.lookup_cons, List.lookup_cons]
    cases key == k with
    | true => rfl
    | false => exact ih

/-- The keys of a dictionary. -/
theorem lookup_isSome {d : List (K × V)} {key : K} : (d.lookup key).isSome = true ↔ key ∈ d.map Prod.fst := by
  induction d with
  | nil => simp
  | cons kv d ih =>
    obtain ⟨k, v⟩ := kv
    rw [List.lookup_cons, List.map_cons, List.mem_cons, ← ih]
    cases hk : key == k with
    | true => simp [beq_iff_eq.1 hk]
    | false => simp [beq_eq_false_iff_ne.1 hk]

/-- The keys are these: `set(d) == set(keys)`. -/
def hasKeys (d : List (K × V)) (keys : List K) : Bool :=
  keys.all (fun key => (d.lookup key).isSome) && d.all fun kv => keys.contains kv.1

theorem hasKeys_iff {d : List (K × V)} {keys : List K} :
    hasKeys d keys = true ↔ ∀ key, (d.lookup key).isSome = keys.contains key := by
  unfold hasKeys
  rw [Bool.and_eq_true, List.all_eq_true, List.all_eq_true]
  constructor
  · rintro ⟨hkeys, hd⟩ key
    rw [Bool.eq_iff_iff, List.contains_iff_mem]
    refine ⟨fun h => ?_, hkeys key⟩
    obtain ⟨kv, hkv, rfl⟩ := List.mem_map.1 (lookup_isSome.1 h)
    exact List.contains_iff_mem.1 (hd kv hkv)
  · intro h
    refine ⟨fun key hkey => ?_, fun kv hkv => ?_⟩
    · rw [h key, List.contains_iff_mem]
      exact hkey
    · rw [← h kv.1, lookup_isSome]
      exact List.mem_map.2 ⟨kv, hkv, rfl⟩

/-! ## Listing a function -/

def ofKeys (keys : List K) (p : K → Option V) : List (K × V) := keys.filterMap fun key => (p key).map (key, ·)

omit [DecidableEq K] in
theorem ofKeys_cons (key : K) (keys : List K) (p : K → Option V) :
    ofKeys (key :: keys) p = ((p key).map (key, ·)).toList ++ ofKeys keys p := by
  cases h : p key <;> simp [ofKeys, h]

theorem lookup_ofKeys (keys : List K) (p : K → Option V) (key : K) :
    (ofKeys keys p).lookup key = if key ∈ keys then p key else none := by
  induction keys with
  | nil => rfl
  | cons k keys ih =>
    rw [ofKeys_cons]
    by_cases hk : key = k
    · subst hk
      cases hp : p key with
      | none =>
        rw [Option.map_none, Option.toList_none, List.nil_append, ih]
        simp [hp]
      | some v => simp
    · have hmem : key ∈ k :: keys ↔ key ∈ keys := by simp [hk]
      have hbeq : (key == k) = false := beq_eq_false_iff_ne.2 hk
      cases hp : p k with
      | none =>
        rw [Option.map_none, Option.toList_none, List.nil_append, ih]
        simp only [hmem]
      | some v =>
        rw [Option.map_some, Option.toList_some, List.singleton_append, List.lookup_cons, hbeq, ih]
        simp only [hmem]

omit [DecidableEq K] in
theorem ofKeys_nodup {keys : List K} (hk : keys.Nodup) (p : K → Option V) : ((ofKeys keys p).map Prod.fst).Nodup := by
  have hsub : ∀ l : List K, ((ofKeys l p).map Prod.fst).Sublist l := by
    intro l
    induction l with
    | nil => exact List.Sublist.refl _
    | cons k l ih =>
      rw [ofKeys_cons]
      cases p k with
      | none => exact ih.cons k
      | some v => exact ih.cons_cons k
  exact (hsub keys).nodup hk

/-! ## One of several -/

/-- Counting what is there, and comparing the set of it. -/
theorem countP_one_iff {ks : List K} (hks : ks.Nodup) {q : K → Bool} {k : K} (hmem : k ∈ ks) :
    ks.countP q = 1 ∧ q k = true ↔ (ks.all fun key => q key == (key == k)) = true := by
  rw [List.all_eq_true]
  constructor
  · rintro ⟨hcount, hk⟩ key hkey
    rw [List.countP_eq_length_filter, List.length_eq_one_iff] at hcount
    obtain ⟨y, hy⟩ := hcount
    have hiff : ∀ x, x ∈ ks ∧ q x = true ↔ x = y := by
      intro x
      rw [← List.mem_filter, hy, List.mem_singleton]
    have hky := (hiff k).1 ⟨hmem, hk⟩
    rw [beq_iff_eq, Bool.eq_iff_iff, beq_iff_eq, hky, ← hiff]
    exact ⟨fun h => ⟨hkey, h⟩, fun h => h.2⟩
  · intro hall
    have hq : ∀ key ∈ ks, q key = (key == k) := fun key hkey => beq_iff_eq.1 (hall key hkey)
    refine ⟨?_, by rw [hq k hmem, beq_self_eq_true]⟩
    have hcount : ks.countP q = ks.count k := List.countP_congr fun key hkey => by rw [hq key hkey]
    rw [hcount, List.count_eq_one_of_mem hks hmem]

omit [DecidableEq K] in
/-- Counting with a list of flags. -/
theorem countP_eq_count (l : List K) (q : K → Bool) : l.countP q = (l.map q).count true := by
  induction l with
  | nil => rfl
  | cons k l ih => simp [List.countP_cons, List.count_cons, ih]

end Nucleo.Assoc
