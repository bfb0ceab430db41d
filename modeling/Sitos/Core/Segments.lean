import Mathlib

/-!
# Separated texts

A text cut at every occurrence of a separator, and the texts that the pieces
came from.  Pieces never contain the separator, so a text and its pieces determine
each other; a separator at the end shows as an empty last piece.
-/

namespace Sitos.Segments

variable {α : Type*} {sep : α}

theorem intercalate_cons {piece : List α} {pieces : List (List α)} (hpieces : pieces ≠ []) :
    [sep].intercalate (piece :: pieces) = piece ++ sep :: [sep].intercalate pieces := by
  obtain ⟨next, pieces, rfl⟩ := List.exists_cons_of_ne_nil hpieces
  simp

theorem mem_intercalate {pieces : List (List α)} {piece : List α} {c : α} (hpiece : piece ∈ pieces)
    (hc : c ∈ piece) : c ∈ [sep].intercalate pieces := by
  induction pieces with
  | nil => exact absurd hpiece List.not_mem_nil
  | cons first pieces ih =>
      by_cases hpieces : pieces = []
      · rw [hpieces, List.mem_singleton] at hpiece
        rw [hpieces, List.intercalate_singleton]
        exact hpiece ▸ hc
      · rw [intercalate_cons hpieces, List.mem_append, List.mem_cons]
        rcases List.mem_cons.mp hpiece with rfl | hpiece
        · exact .inl hc
        · exact .inr (.inr (ih hpiece))

/-- An empty last piece is a separator at the end. -/
theorem intercalate_concat_nil {pieces : List (List α)} (hpieces : pieces ≠ []) :
    [sep].intercalate (pieces ++ [[]]) = [sep].intercalate pieces ++ [sep] := by
  induction pieces with
  | nil => exact absurd rfl hpieces
  | cons piece pieces ih =>
      cases pieces with
      | nil => simp
      | cons next pieces =>
          have hrest := ih (List.cons_ne_nil _ _)
          rw [List.cons_append, intercalate_cons (by simp), hrest,
            intercalate_cons (List.cons_ne_nil _ _)]
          simp

theorem intercalate_ne_nil {pieces : List (List α)} (hpieces : pieces ≠ [])
    (hnonempty : ∀ piece ∈ pieces, piece ≠ []) : [sep].intercalate pieces ≠ [] := by
  obtain ⟨piece, pieces, rfl⟩ := List.exists_cons_of_ne_nil hpieces
  have hpiece := hnonempty piece List.mem_cons_self
  cases pieces with
  | nil => simpa using hpiece
  | cons next pieces => simp [hpiece]

/-- A text of non-empty pieces does not end with the separator. -/
theorem getLast?_intercalate_ne {pieces : List (List α)}
    (hpieces : ∀ piece ∈ pieces, piece ≠ [] ∧ sep ∉ piece) :
    ([sep].intercalate pieces).getLast? ≠ some sep := by
  induction pieces with
  | nil => simp
  | cons piece pieces ih =>
      have hpiece := hpieces piece List.mem_cons_self
      cases pieces with
      | nil =>
          intro hlast
          rw [List.intercalate_singleton] at hlast
          exact hpiece.2 (List.mem_of_getLast? hlast)
      | cons next pieces =>
          have hrest := ih fun other hother => hpieces other (List.mem_cons_of_mem _ hother)
          have hne : [sep].intercalate (next :: pieces) ≠ [] :=
            intercalate_ne_nil (List.cons_ne_nil _ _) fun other hother =>
              (hpieces other (List.mem_cons_of_mem _ hother)).1
          rw [intercalate_cons (List.cons_ne_nil _ _), List.getLast?_append_cons,
            List.getLast?_cons_of_ne_nil hne]
          exact hrest

theorem head?_intercalate_ne {pieces : List (List α)}
    (hpieces : ∀ piece ∈ pieces, piece ≠ [] ∧ sep ∉ piece) :
    ([sep].intercalate pieces).head? ≠ some sep := by
  cases pieces with
  | nil => simp
  | cons piece pieces =>
      obtain ⟨hne, hsep⟩ := hpieces piece List.mem_cons_self
      obtain ⟨c, piece, rfl⟩ := List.exists_cons_of_ne_nil hne
      have hc : c ≠ sep := fun hc => hsep (hc ▸ List.mem_cons_self)
      cases pieces <;> simp [hc]

/-! ## Cutting at the separator -/

variable [DecidableEq α]

theorem sep_not_mem_of_mem_splitOn {text piece : List α} (hpiece : piece ∈ text.splitOn sep) :
    sep ∉ piece := by
  induction text generalizing piece with
  | nil =>
      rw [List.splitOn_nil, List.mem_singleton] at hpiece
      simp [hpiece]
  | cons c text ih =>
      rw [List.splitOn_cons_eq_if_modifyHead] at hpiece
      split_ifs at hpiece with hc
      · rcases List.mem_cons.mp hpiece with rfl | hpiece
        · exact List.not_mem_nil
        · exact ih hpiece
      · -- the first piece grows by a letter that is not the separator
        cases hsplit : text.splitOn sep with
        | nil => exact absurd hsplit (List.splitOn_ne_nil sep text)
        | cons first pieces =>
            rw [hsplit, List.modifyHead_cons] at hpiece
            rw [hsplit] at ih
            rcases List.mem_cons.mp hpiece with rfl | hpiece
            · have hne : c ≠ sep := by simpa using hc
              have hfirst := ih List.mem_cons_self
              simp [hfirst, hne.symm]
            · exact ih (List.mem_cons_of_mem _ hpiece)

/-- The pieces before an empty last piece, and the text they came from. -/
theorem eq_of_getLast?_splitOn {text : List α} (hlast : (text.splitOn sep).getLast? = some [])
    (hrest : (text.splitOn sep).dropLast ≠ []) :
    text = [sep].intercalate (text.splitOn sep).dropLast ++ [sep] := by
  have hpieces : text.splitOn sep = (text.splitOn sep).dropLast ++ [[]] :=
    (List.dropLast_append_getLast? [] hlast).symm
  calc text = [sep].intercalate (text.splitOn sep) := (List.intercalate_splitOn sep).symm
    _ = [sep].intercalate ((text.splitOn sep).dropLast ++ [[]]) := congrArg _ hpieces
    _ = _ := intercalate_concat_nil hrest

/-! ## The first piece -/

theorem takeWhile_append_cons {head tail : List α} (hhead : sep ∉ head) :
    (head ++ sep :: tail).takeWhile (· != sep) = head := by
  have hne : ∀ c ∈ head, (c != sep) = true := by
    intro c hc
    simpa using fun h : c = sep => hhead (h ▸ hc)
  rw [List.takeWhile_append_of_pos hne]
  simp

theorem dropWhile_append_cons {head tail : List α} (hhead : sep ∉ head) :
    (head ++ sep :: tail).dropWhile (· != sep) = sep :: tail := by
  have hne : ∀ c ∈ head, (c != sep) = true := by
    intro c hc
    simpa using fun h : c = sep => hhead (h ▸ hc)
  rw [List.dropWhile_append_of_pos hne]
  simp

theorem append_cons_inj {head head' tail tail' : List α} (hhead : sep ∉ head) (hhead' : sep ∉ head')
    (heq : head ++ sep :: tail = head' ++ sep :: tail') : head = head' ∧ tail = tail' := by
  have hheads : head = head' := by
    have htake := congrArg (List.takeWhile (· != sep)) heq
    rwa [takeWhile_append_cons hhead, takeWhile_append_cons hhead'] at htake
  subst hheads
  exact ⟨rfl, by simpa using heq⟩

end Sitos.Segments
