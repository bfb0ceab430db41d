import Mathlib

/-!
# Ordered maps

Finite maps held as one list of entries with distinct keys, in the order a
`std::map` iterates over them.  What a lookup returns does not depend on the
order, so no lemma needs the comparison to be a linear order.
-/

namespace Sitos.Core

structure OrderedMap (K V : Type) where
  entries : List (K × V)
  nodup : (entries.map Prod.fst).Nodup

namespace OrderedMap

variable {K V W : Type}

def empty : OrderedMap K V := ⟨[], List.nodup_nil⟩

/-- Values changed one by one, keys kept; nothing when one value is refused. -/
def traverseEntries (f : K → V → Option W) : List (K × V) → Option (List (K × W))
  | [] => some []
  | (key, value) :: entries => do
      let value ← f key value
      let entries ← traverseEntries f entries
      some ((key, value) :: entries)

theorem keys_traverseEntries {f : K → V → Option W} {entries : List (K × V)}
    {results : List (K × W)} (hresults : traverseEntries f entries = some results) :
    results.map Prod.fst = entries.map Prod.fst := by
  induction entries generalizing results with
  | nil =>
      obtain rfl := Option.some.inj hresults
      rfl
  | cons entry entries ih =>
      simp only [traverseEntries, Option.bind_eq_bind, Option.bind_eq_some_iff] at hresults
      obtain ⟨value, -, rest, hrest, hcons⟩ := hresults
      obtain rfl := Option.some.inj hcons
      rw [List.map_cons, List.map_cons, ih hrest]

def traverse (f : K → V → Option W) (map : OrderedMap K V) : Option (OrderedMap K W) :=
  match hresults : traverseEntries f map.entries with
  | none => none
  | some results => some ⟨results, keys_traverseEntries hresults ▸ map.nodup⟩

def mapValues (f : V → W) (map : OrderedMap K V) : OrderedMap K W where
  entries := map.entries.map fun (key, value) => (key, f value)
  nodup := by
    rw [List.map_map]
    exact map.nodup

variable [DecidableEq K]

def find (map : OrderedMap K V) (key : K) : Option V :=
  (map.entries.find? fun entry => entry.1 = key).map Prod.snd

variable [LE K] [DecidableLE K]

def insertEntry (key : K) (value : V) (entries : List (K × V)) : List (K × V) :=
  if key ∈ entries.map Prod.fst then
    entries.map fun entry => if entry.1 = key then (key, value) else entry
  else entries.orderedInsert (fun first second => first.1 ≤ second.1) (key, value)

omit [LE K] [DecidableLE K] in
theorem keys_replace (key : K) (value : V) (entries : List (K × V)) :
    (entries.map fun entry => if entry.1 = key then (key, value) else entry).map Prod.fst =
      entries.map Prod.fst := by
  rw [List.map_map]
  apply List.map_congr_left
  intro entry _
  by_cases hkey : entry.1 = key
  · simp [hkey]
  · simp [hkey]

theorem nodup_insertEntry {key : K} {value : V} {entries : List (K × V)}
    (hnodup : (entries.map Prod.fst).Nodup) :
    ((insertEntry key value entries).map Prod.fst).Nodup := by
  unfold insertEntry
  split_ifs with hkey
  · rw [keys_replace]
    exact hnodup
  · have hperm := (List.perm_orderedInsert
      (fun first second : K × V => first.1 ≤ second.1) (key, value) entries).map Prod.fst
    rw [hperm.nodup_iff, List.map_cons, List.nodup_cons]
    exact ⟨hkey, hnodup⟩

/-- `std::map::insert_or_assign`. -/
def insertOrAssign (map : OrderedMap K V) (key : K) (value : V) : OrderedMap K V :=
  ⟨insertEntry key value map.entries, nodup_insertEntry map.nodup⟩

/-! ## Lookups -/

omit [LE K] [DecidableLE K] in
theorem mem_entries_iff (map : OrderedMap K V) (key : K) (value : V) :
    (key, value) ∈ map.entries ↔ map.find key = some value := by
  constructor
  · intro hmem
    have hfound : (map.entries.find? fun entry => entry.1 = key).isSome := by
      rw [List.find?_isSome]
      exact ⟨_, hmem, by simp⟩
    obtain ⟨entry, hentry⟩ := Option.isSome_iff_exists.mp hfound
    have hkey : entry.1 = key := by simpa using List.find?_some hentry
    have hsame : entry = (key, value) :=
      List.inj_on_of_nodup_map map.nodup (List.mem_of_find?_eq_some hentry) hmem hkey
    rw [find, hentry, hsame]
    rfl
  · intro hfind
    obtain ⟨entry, hentry, rfl⟩ := Option.map_eq_some_iff.mp hfind
    have hkey : entry.1 = key := by simpa using List.find?_some hentry
    rw [← hkey]
    exact List.mem_of_find?_eq_some hentry

theorem mem_insertEntry_iff {key other : K} {value result : V} {entries : List (K × V)} :
    (other, result) ∈ insertEntry key value entries ↔
      (other = key ∧ result = value) ∨ (other ≠ key ∧ (other, result) ∈ entries) := by
  unfold insertEntry
  split_ifs with hkey
  · rw [List.mem_map]
    constructor
    · rintro ⟨entry, hentry, hresult⟩
      by_cases hother : entry.1 = key
      · rw [if_pos hother] at hresult
        exact Or.inl ⟨congrArg Prod.fst hresult.symm, congrArg Prod.snd hresult.symm⟩
      · rw [if_neg hother] at hresult
        rw [hresult] at hother hentry
        exact Or.inr ⟨hother, hentry⟩
    · rintro (⟨rfl, rfl⟩ | ⟨hne, hmem⟩)
      · obtain ⟨entry, hentry, hfst⟩ := List.mem_map.mp hkey
        exact ⟨entry, hentry, if_pos hfst⟩
      · exact ⟨_, hmem, if_neg hne⟩
  · rw [List.mem_orderedInsert, Prod.mk.injEq]
    constructor
    · rintro (hsame | hmem)
      · exact Or.inl hsame
      · refine Or.inr ⟨?_, hmem⟩
        rintro rfl
        exact hkey (List.mem_map_of_mem (f := Prod.fst) hmem)
    · rintro (hsame | ⟨-, hmem⟩)
      · exact Or.inl hsame
      · exact Or.inr hmem

@[simp]
theorem find_insertOrAssign_self (map : OrderedMap K V) (key : K) (value : V) :
    (map.insertOrAssign key value).find key = some value := by
  rw [← mem_entries_iff]
  exact mem_insertEntry_iff.mpr (Or.inl ⟨rfl, rfl⟩)

theorem find_insertOrAssign_of_ne (map : OrderedMap K V) {key other : K} (value : V)
    (hne : other ≠ key) : (map.insertOrAssign key value).find other = map.find other := by
  apply Option.ext
  intro result
  rw [← mem_entries_iff, ← mem_entries_iff]
  constructor
  · intro hmem
    rcases mem_insertEntry_iff.mp hmem with ⟨hsame, -⟩ | ⟨-, hold⟩
    · exact absurd hsame hne
    · exact hold
  · intro hold
    exact mem_insertEntry_iff.mpr (Or.inr ⟨hne, hold⟩)

theorem mapValues_insertOrAssign (f : V → W) (map : OrderedMap K V) (key : K) (value : V) :
    (map.insertOrAssign key value).mapValues f = (map.mapValues f).insertOrAssign key (f value) := by
  have hkeys : (map.entries.map fun (key, value) => (key, f value)).map Prod.fst =
      map.entries.map Prod.fst := by
    rw [List.map_map]
    rfl
  simp only [insertOrAssign, mapValues, mk.injEq, insertEntry, hkeys]
  split_ifs with hkey
  · rw [List.map_map, List.map_map]
    apply List.map_congr_left
    intro entry _
    by_cases hentry : entry.1 = key
    · simp [hentry]
    · simp [hentry]
  · apply List.map_orderedInsert
    · exact fun _ _ => Iff.rfl
    · exact fun _ _ => Iff.rfl

omit [DecidableEq K] [LE K] [DecidableLE K] in
/-- A traversal that undoes a change of values returns the map before the
change. -/
theorem traverse_mapValues {f : K → W → Option V} {g : V → W} {map : OrderedMap K V}
    (hinverse : ∀ key value, (key, value) ∈ map.entries → f key (g value) = some value) :
    (map.mapValues g).traverse f = some map := by
  have hentries : ∀ entries : List (K × V),
      (∀ key value, (key, value) ∈ entries → f key (g value) = some value) →
        traverseEntries f (entries.map fun (key, value) => (key, g value)) = some entries := by
    intro entries
    induction entries with
    | nil => exact fun _ => rfl
    | cons entry entries ih =>
        intro hentry
        have hhead := hentry entry.1 entry.2 List.mem_cons_self
        have hrest := ih fun key value hmem => hentry key value (List.mem_cons_of_mem _ hmem)
        simp [traverseEntries, hhead, hrest]
  have hresults : traverseEntries f (map.mapValues g).entries = some map.entries :=
    hentries map.entries hinverse
  unfold traverse
  split
  · rename_i hnone
    rw [hresults] at hnone
    exact absurd hnone (Option.some_ne_none _)
  · rename_i results hsome
    rw [hresults] at hsome
    obtain rfl := Option.some.inj hsome
    rfl

end OrderedMap

end Sitos.Core
