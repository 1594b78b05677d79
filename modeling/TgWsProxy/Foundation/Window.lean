import Mathlib.Data.List.Infix

/-!
# Searching for a pattern

The first place where a pattern stands in a list. A list that is still growing shows the
place as soon as the whole pattern is there.
-/

namespace Foundation.Window

variable {α : Type} [DecidableEq α] {pattern items : List α} {index : Nat}

/-- The index of the first window equal to the pattern. -/
def position (pattern : List α) : List α → Option Nat
  | [] => none
  | first :: rest =>
      if pattern.isPrefixOf (first :: rest) then some 0
      else (position pattern rest).map (· + 1)

/-- The number of windows equal to the pattern. -/
def count (pattern : List α) : List α → Nat
  | [] => 0
  | first :: rest =>
      (if pattern.isPrefixOf (first :: rest) then 1 else 0) + count pattern rest

theorem position_eq_some_iff (hpattern : pattern ≠ []) :
    position pattern items = some index ↔
      pattern <+: items.drop index ∧ ∀ earlier < index, ¬ pattern <+: items.drop earlier := by
  induction items generalizing index with
  | nil => simp [position, hpattern]
  | cons first rest ih =>
      rw [position]
      by_cases hfirst : pattern <+: first :: rest
      · rw [if_pos (List.isPrefixOf_iff_prefix.mpr hfirst)]
        constructor
        · rintro heq
          cases heq
          exact ⟨hfirst, fun _ hlt => absurd hlt (Nat.not_lt_zero _)⟩
        · rintro ⟨-, hearlier⟩
          cases index with
          | zero => rfl
          | succ index => exact (hearlier 0 (Nat.succ_pos index) hfirst).elim
      · rw [if_neg (fun hhere => hfirst (List.isPrefixOf_iff_prefix.mp hhere))]
        cases index with
        | zero => simp [hfirst]
        | succ index =>
            rw [Option.map_eq_some_iff]
            simp only [Nat.add_right_cancel_iff, exists_eq_right, ih, List.drop_succ_cons]
            apply and_congr_right
            intro _
            constructor
            · intro hearlier earlier hlt
              cases earlier with
              | zero => exact hfirst
              | succ earlier => exact hearlier earlier (Nat.lt_of_succ_lt_succ hlt)
            · intro hearlier earlier hlt
              exact hearlier (earlier + 1) (Nat.succ_lt_succ hlt)

/-- A pattern that was found fits into the list. -/
theorem position_add_length_le (hpattern : pattern ≠ [])
    (hposition : position pattern items = some index) :
    index + pattern.length ≤ items.length := by
  have hlength := ((position_eq_some_iff hpattern).mp hposition).1.length_le
  have hpos := List.length_pos_of_ne_nil hpattern
  rw [List.length_drop] at hlength
  omega

/-- What the beginning of a list shows, the whole list shows, and nothing before it. -/
theorem position_extend {front : List α} (hpattern : pattern ≠ []) (hfront : front <+: items)
    (hposition : position pattern front = some index) : position pattern items = some index := by
  obtain ⟨hfound, hearlier⟩ := (position_eq_some_iff hpattern).mp hposition
  have hfits := position_add_length_le hpattern hposition
  rw [position_eq_some_iff hpattern]
  refine ⟨hfound.trans (hfront.drop index), ?_⟩
  intro earlier hlt hhere
  apply hearlier earlier hlt
  apply List.prefix_of_prefix_length_le hhere (hfront.drop earlier)
  rw [List.length_drop]
  omega

/-- In the beginning of a list a pattern is found at the same place, once it is all there. -/
theorem position_beginning {front : List α} (hpattern : pattern ≠ []) (hfront : front <+: items)
    (hposition : position pattern items = some index) :
    position pattern front =
      if index + pattern.length ≤ front.length then some index else none := by
  obtain ⟨hfound, hearlier⟩ := (position_eq_some_iff hpattern).mp hposition
  have hpos := List.length_pos_of_ne_nil hpattern
  split
  next hthere =>
    rw [position_eq_some_iff hpattern]
    constructor
    · apply List.prefix_of_prefix_length_le hfound (hfront.drop index)
      rw [List.length_drop]
      omega
    · intro earlier hlt hhere
      exact hearlier earlier hlt (hhere.trans (hfront.drop earlier))
  next hthere =>
    cases hother : position pattern front with
    | none => rfl
    | some other =>
        have hfits := position_add_length_le hpattern hother
        cases (position_extend hpattern hfront hother).symm.trans hposition
        omega

/-- A pair of different elements that a line does not contain is found behind it. -/
theorem position_append_pair {a b : α} (hne : a ≠ b) {line rest : List α}
    (hline : ¬ [a, b] <:+: line) :
    position [a, b] (line ++ a :: b :: rest) = some line.length := by
  induction line with
  | nil => simp [position]
  | cons first line ih =>
      have hrest : ¬ [a, b] <:+: line := by
        intro hwithin
        exact hline (hwithin.trans (List.infix_cons List.infix_rfl))
      have hfirst : ¬ [a, b] <+: first :: (line ++ a :: b :: rest) := by
        intro hhere
        obtain ⟨rfl, hsecond⟩ := List.cons_prefix_cons.mp hhere
        cases line with
        | nil => exact hne (List.cons_prefix_cons.mp hsecond).1.symm
        | cons second line =>
            obtain ⟨rfl, -⟩ := List.cons_prefix_cons.mp hsecond
            exact hline (List.IsPrefix.isInfix (by simp))
      rw [List.cons_append, position,
        if_neg (fun hhere => hfirst (List.isPrefixOf_iff_prefix.mp hhere)), ih hrest]
      rfl

end Foundation.Window
