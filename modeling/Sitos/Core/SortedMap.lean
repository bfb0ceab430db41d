import Mathlib

/-!
# Sorted maps

Finite maps held as the list of their entries in increasing key order, which is
how a `std::map` iterates over them.  Two maps with the same lookups are equal, so
whatever is sorted by key before it is used does not depend on how it was
collected.
-/

namespace Sitos.Core

structure SortedMap (K V : Type) [LinearOrder K] where
  entries : List (K × V)
  sorted : entries.Pairwise fun first second => first.1 < second.1

namespace SortedMap

variable {K V : Type} [LinearOrder K]

def empty : SortedMap K V := ⟨[], List.Pairwise.nil⟩

def find (map : SortedMap K V) (key : K) : Option V :=
  (map.entries.find? fun entry => entry.1 = key).map Prod.snd

def insertEntry (key : K) (value : V) : List (K × V) → List (K × V)
  | [] => [(key, value)]
  | entry :: entries =>
      if key < entry.1 then (key, value) :: entry :: entries
      else if key = entry.1 then (key, value) :: entries
      else entry :: insertEntry key value entries

theorem mem_insertEntry {key : K} {value : V} {entries : List (K × V)} {entry : K × V}
    (hentry : entry ∈ insertEntry key value entries) : entry = (key, value) ∨ entry ∈ entries := by
  induction entries with
  | nil => exact .inl (List.mem_singleton.mp hentry)
  | cons first entries ih =>
      rw [insertEntry] at hentry
      split_ifs at hentry
      · exact List.mem_cons.mp hentry
      · rcases List.mem_cons.mp hentry with hsame | hmem
        · exact .inl hsame
        · exact .inr (List.mem_cons_of_mem _ hmem)
      · rcases List.mem_cons.mp hentry with hsame | hmem
        · exact .inr (List.mem_cons.mpr (.inl hsame))
        · rcases ih hmem with hsame | hmem
          · exact .inl hsame
          · exact .inr (List.mem_cons_of_mem _ hmem)

theorem sorted_insertEntry {key : K} {value : V} {entries : List (K × V)}
    (hsorted : entries.Pairwise fun first second => first.1 < second.1) :
    (insertEntry key value entries).Pairwise fun first second => first.1 < second.1 := by
  induction entries with
  | nil => exact List.pairwise_singleton _ _
  | cons first entries ih =>
      have hfirst := List.pairwise_cons.mp hsorted
      rw [insertEntry]
      split_ifs with hlt heq
      · refine List.pairwise_cons.mpr ⟨fun entry hentry => ?_, hsorted⟩
        rcases List.mem_cons.mp hentry with rfl | hmem
        · exact hlt
        · exact hlt.trans (hfirst.1 entry hmem)
      · refine List.pairwise_cons.mpr ⟨fun entry hentry => ?_, hfirst.2⟩
        rw [heq]
        exact hfirst.1 entry hentry
      · refine List.pairwise_cons.mpr ⟨fun entry hentry => ?_, ih hfirst.2⟩
        rcases mem_insertEntry hentry with rfl | hmem
        · exact lt_of_le_of_ne (not_lt.mp hlt) (Ne.symm heq)
        · exact hfirst.1 entry hmem

/-- `std::map::insert_or_assign`. -/
def insertOrAssign (map : SortedMap K V) (key : K) (value : V) : SortedMap K V :=
  ⟨insertEntry key value map.entries, sorted_insertEntry map.sorted⟩

/-- `std::map::erase` of a key. -/
def erase (map : SortedMap K V) (key : K) : SortedMap K V :=
  ⟨map.entries.filter fun entry => entry.1 ≠ key, map.sorted.filter _⟩

/-- `std::erase_if` by the keys. -/
def eraseIf (map : SortedMap K V) (test : K → Bool) : SortedMap K V :=
  ⟨map.entries.filter fun entry => !test entry.1, map.sorted.filter _⟩

/-! ## Lookups -/

theorem mem_entries_iff (map : SortedMap K V) (key : K) (value : V) :
    (key, value) ∈ map.entries ↔ map.find key = some value := by
  obtain ⟨entries, hsorted⟩ := map
  induction entries with
  | nil => simp [find]
  | cons entry entries ih =>
      have hfirst := List.pairwise_cons.mp hsorted
      have hrest := ih hfirst.2
      simp only [find] at hrest ⊢
      by_cases hkey : entry.1 = key
      · have hlater : (key, value) ∉ entries := by
          intro hmem
          exact absurd (hfirst.1 _ hmem) (by simp [hkey])
        simp only [List.mem_cons, hlater, or_false, List.find?_cons, hkey, decide_true,
          Option.map_some, Option.some.injEq, Prod.ext_iff, true_and]
        exact eq_comm
      · have hne : (key, value) ≠ entry := by
          rintro rfl
          exact hkey rfl
        simp only [List.mem_cons, hne, false_or, List.find?_cons, hkey, decide_false]
        exact hrest

/-- A map is determined by its entries as a set. -/
theorem eq_of_mem_iff {map other : SortedMap K V}
    (hmem : ∀ entry, entry ∈ map.entries ↔ entry ∈ other.entries) : map = other := by
  have hnodup : ∀ map : SortedMap K V, map.entries.Nodup := fun map =>
    map.sorted.imp fun hlt heq => absurd (congrArg Prod.fst heq) hlt.ne
  have hperm : map.entries.Perm other.entries :=
    (List.perm_ext_iff_of_nodup (hnodup map) (hnodup other)).mpr hmem
  have hentries : map.entries = other.entries :=
    hperm.eq_of_pairwise (fun first second _ _ hlt hgt => absurd hgt hlt.asymm) map.sorted other.sorted
  cases map
  cases other
  congr

theorem ext_find {map other : SortedMap K V} (hfind : ∀ key, map.find key = other.find key) :
    map = other := by
  apply eq_of_mem_iff
  rintro ⟨key, value⟩
  rw [mem_entries_iff, mem_entries_iff, hfind]

@[simp]
theorem find_empty (key : K) : (empty : SortedMap K V).find key = none := rfl

theorem find_insertOrAssign (map : SortedMap K V) (key other : K) (value : V) :
    (map.insertOrAssign key value).find other = if other = key then some value else map.find other := by
  obtain ⟨entries, hsorted⟩ := map
  simp only [find, insertOrAssign]
  induction entries with
  | nil => by_cases hkey : other = key <;> simp [insertEntry, hkey, eq_comm]
  | cons entry entries ih =>
      have hrest := ih (List.pairwise_cons.mp hsorted).2
      rw [insertEntry]
      split_ifs at hrest ⊢ with hlt hkey heq hkey hkey
      · simp [hkey]
      · have hother : ¬key = other := fun h => hkey h.symm
        simp [hother]
      · simp [hkey]
      · have hother : ¬key = other := fun h => hkey h.symm
        have hentry : ¬entry.1 = other := fun h => hother (heq.trans h)
        simp [hother, hentry]
      · have hentry : ¬entry.1 = other := fun h => heq (hkey ▸ h.symm)
        rw [List.find?_cons_of_neg (by simpa using hentry)]
        exact hrest
      · by_cases hentry : entry.1 = other
        · simp [hentry]
        · rw [List.find?_cons_of_neg (by simpa using hentry),
            List.find?_cons_of_neg (by simpa using hentry)]
          exact hrest

theorem insertEntry_keys_of_mem {key : K} (value : V) {entries : List (K × V)}
    (hkey : key ∈ entries.map Prod.fst)
    (hsorted : entries.Pairwise fun first second => first.1 < second.1) :
    (insertEntry key value entries).map Prod.fst = entries.map Prod.fst := by
  induction entries with
  | nil => cases hkey
  | cons entry entries ih =>
      have hfirst := List.pairwise_cons.mp hsorted
      rw [insertEntry]
      split_ifs with hlt heq
      · rcases List.mem_cons.mp hkey with hsame | hlater
        · exact absurd hsame hlt.ne
        · obtain ⟨other, hother, hsame⟩ := List.mem_map.mp hlater
          have hgt := hfirst.1 other hother
          rw [hsame] at hgt
          exact absurd hgt hlt.asymm
      · simp [heq]
      · have hlater : key ∈ entries.map Prod.fst := by
          rcases List.mem_cons.mp hkey with hsame | hlater
          · exact absurd hsame heq
          · exact hlater
        simp [ih hlater hfirst.2]

theorem length_insertEntry_le (key : K) (value : V) (entries : List (K × V)) :
    (insertEntry key value entries).length ≤ entries.length + 1 := by
  induction entries with
  | nil => exact le_rfl
  | cons entry entries ih =>
      rw [insertEntry]
      split_ifs
      · exact le_rfl
      · exact Nat.le_succ _
      · exact Nat.succ_le_succ ih

/-- A key that is there gets another value, and no entry is added. -/
theorem length_insertOrAssign_of_find {map : SortedMap K V} {key : K} {old : V}
    (hfind : map.find key = some old) (value : V) :
    (map.insertOrAssign key value).entries.length = map.entries.length := by
  have hkey : key ∈ map.entries.map Prod.fst :=
    List.mem_map.mpr ⟨(key, old), (mem_entries_iff map key old).mpr hfind, rfl⟩
  have hkeys := congrArg List.length (insertEntry_keys_of_mem value hkey map.sorted)
  simpa [insertOrAssign] using hkeys

theorem find_erase (map : SortedMap K V) (key other : K) :
    (map.erase key).find other = if other = key then none else map.find other := by
  apply Option.ext
  intro value
  rw [← mem_entries_iff, erase]
  simp only [List.mem_filter, mem_entries_iff]
  split_ifs with hkey
  · simp [hkey]
  · simp [hkey]

theorem find_eraseIf (map : SortedMap K V) (test : K → Bool) (key : K) :
    (map.eraseIf test).find key = if test key then none else map.find key := by
  apply Option.ext
  intro value
  rw [← mem_entries_iff, eraseIf]
  simp only [List.mem_filter, mem_entries_iff]
  split_ifs with htest
  · simp [htest]
  · simp [htest]

/-- Assignments made one after the other. -/
def assignAll (map : SortedMap K V) (items : List (K × V)) : SortedMap K V :=
  items.foldl (fun map item => map.insertOrAssign item.1 item.2) map

/-- Assignments to distinct keys, in whatever order, over what was there before. -/
theorem find_assignAll {map : SortedMap K V} {items : List (K × V)} {key : K} {value : V}
    (hnodup : (items.map Prod.fst).Nodup) :
    (map.assignAll items).find key = some value ↔
      (key, value) ∈ items ∨ (key ∉ items.map Prod.fst ∧ map.find key = some value) := by
  induction items generalizing map with
  | nil => simp [assignAll]
  | cons item items ih =>
      rw [List.map_cons, List.nodup_cons] at hnodup
      have hrest := @ih (map.insertOrAssign item.1 item.2) hnodup.2
      have hstep : map.assignAll (item :: items) =
          (map.insertOrAssign item.1 item.2).assignAll items := rfl
      rw [hstep, hrest, find_insertOrAssign]
      by_cases hkey : key = item.1
      · subst hkey
        have hlater : ∀ value, (item.1, value) ∉ items := fun value hmem =>
          hnodup.1 (List.mem_map.mpr ⟨_, hmem, rfl⟩)
        simp only [if_true, hlater, false_or, hnodup.1, not_false_eq_true, true_and,
          Option.some.injEq, List.mem_cons, Prod.ext_iff, or_false, List.map_cons,
          not_true_eq_false, false_and]
        exact eq_comm
      · have hne : (key, value) ≠ item := fun heq => hkey (congrArg Prod.fst heq)
        simp only [hkey, if_false, List.mem_cons, hne, false_or, List.map_cons]

theorem nodup_keys (map : SortedMap K V) : (map.entries.map Prod.fst).Nodup := by
  rw [List.Nodup, List.pairwise_map]
  exact map.sorted.imp fun hlt => hlt.ne

/-! ## Sorting and scanning -/

def keyLe (first second : K × V) : Bool := first.1 ≤ second.1

/-- `std::sort` by key. -/
def sortByKey (entries : List (K × V)) : List (K × V) := entries.mergeSort keyLe

theorem keyLe_trans (first second third : K × V) (hle : keyLe first second = true)
    (hle' : keyLe second third = true) : keyLe first third = true := by
  simp only [keyLe, decide_eq_true_eq] at hle hle' ⊢
  exact hle.trans hle'

theorem keyLe_total (first second : K × V) : (keyLe first second || keyLe second first) = true := by
  simpa [keyLe] using le_total first.1 second.1

/-- Entries with distinct keys have one sorted order. -/
theorem sortByKey_eq {collected entries : List (K × V)} (hperm : collected.Perm entries)
    (hsorted : entries.Pairwise fun first second => first.1 < second.1) :
    sortByKey collected = entries := by
  have hkeys : ∀ first ∈ entries, ∀ second ∈ entries, first.1 = second.1 → first = second := by
    intro first hfirst second hsecond hkey
    have hmap := fun entry : K × V => mem_entries_iff ⟨entries, hsorted⟩ entry.1 entry.2
    have hvalue := ((hmap first).mp hfirst).symm.trans (hkey ▸ (hmap second).mp hsecond)
    exact Prod.ext hkey (Option.some.inj hvalue)
  have hmerged : (sortByKey collected).Perm entries := (List.mergeSort_perm _ _).trans hperm
  have hle : (sortByKey collected).Pairwise fun first second => first.1 ≤ second.1 :=
    (List.pairwise_mergeSort keyLe_trans keyLe_total collected).imp fun h => by
      simpa [keyLe] using h
  refine hmerged.eq_of_pairwise ?_ hle (hsorted.imp fun hlt => hlt.le)
  intro first second hfirst hsecond hle hge
  exact hkeys first (hmerged.subset hfirst) second hsecond (le_antisymm hle hge)

/-- The entries from the lower bound of a key on, as long as a test holds. -/
def scan (map : SortedMap K V) (lower : K) (test : K → Bool) : List (K × V) :=
  (map.entries.dropWhile fun entry => entry.1 < lower).takeWhile fun entry => test entry.1

/-- A scan finds everything when the keys that pass the test are an interval that
starts at its lower bound. -/
theorem scan_eq_filter (map : SortedMap K V) {lower : K} {test : K → Bool}
    (hlower : ∀ key, test key = true → lower ≤ key)
    (hconvex : ∀ key last, lower ≤ key → key ≤ last → test last = true → test key = true) :
    map.scan lower test = map.entries.filter fun entry => test entry.1 := by
  obtain ⟨entries, hsorted⟩ := map
  simp only [scan]
  induction entries with
  | nil => rfl
  | cons entry entries ih =>
      have hfirst := List.pairwise_cons.mp hsorted
      rw [List.dropWhile_cons, List.filter_cons]
      by_cases hlt : entry.1 < lower
      · have htest : ¬test entry.1 = true := fun htest => (hlower _ htest).not_gt hlt
        rw [if_pos (by simpa using hlt), if_neg htest]
        exact ih hfirst.2
      · have hge : lower ≤ entry.1 := not_lt.mp hlt
        rw [if_neg (by simpa using hlt), List.takeWhile_cons]
        have hdrop : (entries.dropWhile fun entry => decide (entry.1 < lower)) = entries := by
          cases entries with
          | nil => rfl
          | cons next entries =>
              have hnext := hge.trans (hfirst.1 next List.mem_cons_self).le
              simp [not_lt.mpr hnext]
        have hrest := ih hfirst.2
        rw [hdrop] at hrest
        split_ifs with htest
        · rw [hrest]
        · symm
          rw [List.filter_eq_nil_iff]
          intro later hlater htestLater
          exact htest (hconvex _ _ hge (hfirst.1 later hlater).le htestLater)

end SortedMap

/-! ## Keys with a common start -/

variable {α : Type} [LinearOrder α]

theorem le_of_isPrefix {start key : List α} (hstart : start <+: key) : start ≤ key := by
  induction start generalizing key with
  | nil => exact not_lt.mp (List.not_lt_nil key)
  | cons first start ih =>
      obtain ⟨rest, rfl⟩ := hstart
      rw [List.cons_append]
      exact List.cons_le_cons first (ih (List.prefix_append _ _))

theorem isPrefix_of_between {start key last : List α} (hlower : start ≤ key) (hupper : key ≤ last)
    (hlast : start <+: last) : start <+: key := by
  induction start generalizing key last with
  | nil => exact List.nil_prefix
  | cons first start ih =>
      obtain ⟨rest, rfl⟩ := hlast
      cases key with
      | nil => exact absurd (List.nil_lt_cons first start) (not_lt.mpr hlower)
      | cons c key =>
          rw [← not_lt, List.cons_lt_cons_iff] at hlower
          rw [← not_lt, List.cons_append, List.cons_lt_cons_iff] at hupper
          push Not at hlower hupper
          obtain rfl : first = c := le_antisymm hlower.1 hupper.1
          obtain ⟨suffix, rfl⟩ := ih (hlower.2 rfl) (hupper.2 rfl) (List.prefix_append _ _)
          exact ⟨suffix, rfl⟩

end Sitos.Core
