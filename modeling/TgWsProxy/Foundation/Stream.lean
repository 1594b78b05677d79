import Mathlib.Data.List.Basic

/-!
# Reading from a connection

A source is what a peer sends, in the pieces in which it arrives; after the last
piece the stream has ended. A single read returns what is there of the next
piece, an exact read waits for as many elements as it asks for. What an exact
read returns depends on the elements only, not on the pieces.
-/

namespace Foundation.Stream

universe u

variable {α : Type u}

abbrev Source (α : Type u) := List (List α)

namespace Source

/-- Everything that is still to come. -/
def elements (source : Source α) : List α := source.flatten

/-- One read into a buffer of `size` elements; nothing is returned only at the end
of the stream. A piece without elements is no arrival. -/
def read (size : Nat) : Source α → List α × Source α
  | [] => ([], [])
  | [] :: rest => read size rest
  | piece :: rest =>
      if piece.length ≤ size then (piece, rest) else (piece.take size, piece.drop size :: rest)

/-- Read until `count` elements are there; a stream that ends before is used up. -/
def readExact : Nat → Source α → Option (List α) × Source α
  | 0, source => (some [], source)
  | _ + 1, [] => (none, [])
  | count + 1, piece :: rest =>
      if piece.length ≤ count + 1 then
        let (read, rest) := readExact (count + 1 - piece.length) rest
        (read.map (piece ++ ·), rest)
      else (some (piece.take (count + 1)), piece.drop (count + 1) :: rest)

/-- A read into a buffer with room returns what comes first, and nothing only at the
end. -/
theorem elements_of_read {size : Nat} {source : Source α} (hsize : 0 < size) :
    source.elements = (source.read size).1 ++ (source.read size).2.elements ∧
      ((source.read size).1 = [] → source.elements = []) := by
  induction source with
  | nil => exact ⟨rfl, fun _ => rfl⟩
  | cons piece rest ih =>
      cases piece with
      | nil => exact ih
      | cons head tail =>
          simp only [read]
          split
          next hfits => exact ⟨rfl, fun hempty => (List.cons_ne_nil _ _ hempty).elim⟩
          next hlong =>
            refine ⟨?_, ?_⟩
            · change _ = _ ++ (_ ++ elements rest)
              rw [← List.append_assoc, List.take_append_drop]
              rfl
            · intro hempty
              rcases List.take_eq_nil_iff.mp hempty with hzero | hnil
              · exact absurd hzero (Nat.ne_of_gt hsize)
              · cases hnil

theorem length_read_le (size : Nat) (source : Source α) : (source.read size).1.length ≤ size := by
  induction source with
  | nil => exact Nat.zero_le size
  | cons piece rest ih =>
      cases piece with
      | nil => exact ih
      | cons head tail =>
          simp only [read]
          split
          next hfits => exact hfits
          next => exact List.length_take_le _ _

theorem readExact_of_le {count : Nat} {source : Source α}
    (hcount : count ≤ source.elements.length) :
    (source.readExact count).1 = some (source.elements.take count) ∧
      (source.readExact count).2.elements = source.elements.drop count := by
  induction source generalizing count with
  | nil =>
      obtain rfl : count = 0 := Nat.le_zero.mp hcount
      exact ⟨rfl, rfl⟩
  | cons piece rest ih =>
      cases count with
      | zero => exact ⟨rfl, rfl⟩
      | succ count =>
          have hflatten : elements (piece :: rest) = piece ++ elements rest := rfl
          rw [hflatten, List.length_append] at hcount
          rw [hflatten, List.take_append, List.drop_append]
          simp only [readExact]
          split
          next hshort =>
            obtain ⟨hread, hrest⟩ := @ih (count + 1 - piece.length) (by omega)
            rw [List.take_of_length_le hshort, List.drop_eq_nil_of_le hshort]
            exact ⟨by rw [hread, Option.map_some], hrest⟩
          next hlong =>
            have hzero : count + 1 - piece.length = 0 := by omega
            rw [hzero, List.take_zero, List.append_nil]
            exact ⟨rfl, rfl⟩

theorem readExact_of_lt {count : Nat} {source : Source α}
    (hcount : source.elements.length < count) : source.readExact count = (none, []) := by
  induction source generalizing count with
  | nil =>
      cases count with
      | zero => cases hcount
      | succ count => rfl
  | cons piece rest ih =>
      have hflatten : elements (piece :: rest) = piece ++ elements rest := rfl
      rw [hflatten, List.length_append] at hcount
      cases count with
      | zero => cases hcount
      | succ count =>
          simp only [readExact]
          rw [if_pos (by omega), @ih (count + 1 - piece.length) (by omega)]
          rfl

/-- An exact read takes the first elements, however they arrive. -/
theorem readExact_append {source : Source α} {front back : List α}
    (hsource : source.elements = front ++ back) :
    ∃ rest, source.readExact front.length = (some front, rest) ∧ elements rest = back := by
  obtain ⟨hread, hrest⟩ := @readExact_of_le _ front.length source (by simp [hsource])
  rw [hsource, List.take_left] at hread
  rw [hsource, List.drop_left] at hrest
  exact ⟨_, Prod.ext hread rfl, hrest⟩

/-- What an exact read returned came first. -/
theorem elements_of_readExact {count : Nat} {source rest : Source α} {front : List α}
    (hread : source.readExact count = (some front, rest)) :
    source.elements = front ++ rest.elements ∧ front.length = count := by
  rcases Nat.lt_or_ge source.elements.length count with hlt | hle
  · rw [readExact_of_lt hlt] at hread
    cases hread
  · obtain ⟨hfront, hrest⟩ := readExact_of_le hle
    rw [hread] at hfront hrest
    cases hfront
    rw [hrest, List.take_append_drop]
    exact ⟨rfl, List.length_take_of_le hle⟩

end Source

/-! ## Reading to the end -/

section Reads

variable {State : Type u} {β : Type u} (read : Nat → State → List β × State)
  (fits : State → Nat → Prop) (pending : State → List β → Prop)

/-- One read after another, with buffers of the given sizes. -/
def reads : List Nat → State → List (List β) × State
  | [], state => ([], state)
  | size :: sizes, state =>
      let (chunk, state) := read size state
      let (chunks, state) := reads sizes state
      (chunk :: chunks, state)

/-- Every buffer fits the state in which it is read into. -/
def AllFit : State → List Nat → Prop
  | _, [] => True
  | state, size :: sizes => fits state size ∧ AllFit (read size state).2 sizes

theorem allFit_of_forall {large : Nat → Prop} {state : State} {sizes : List Nat}
    (hsizes : ∀ size ∈ sizes, large size) : AllFit read (fun _ size => large size) state sizes := by
  induction sizes generalizing state with
  | nil => trivial
  | cons size sizes ih =>
      obtain ⟨hsize, hsizes⟩ := List.forall_mem_cons.mp hsizes
      exact ⟨hsize, ih hsizes⟩

/-- In a state with `content` pending, a read returns the beginning of it and leaves
the rest pending, and it returns nothing only when nothing is pending. -/
def Delivers : Prop :=
  ∀ state size content, pending state content → fits state size →
    ∃ rest, content = (read size state).1 ++ rest ∧ pending (read size state).2 rest ∧
      ((read size state).1 = [] → content = [])

variable {read fits pending}

/-- The chunks are the beginning of what was pending, in order, and all of it once a
read returned nothing or as many reads were made as elements were pending. -/
theorem Delivers.reads (hdelivers : Delivers read fits pending) {state : State}
    {content : List β} {sizes : List Nat} (hpending : pending state content)
    (hfit : AllFit read fits state sizes) :
    (reads read sizes state).1.flatten <+: content ∧
      ([] ∈ (reads read sizes state).1 ∨ content.length ≤ sizes.length →
        (reads read sizes state).1.flatten = content) := by
  induction sizes generalizing state content with
  | nil =>
      refine ⟨List.nil_prefix, ?_⟩
      rintro (hmem | hlength)
      · exact (List.not_mem_nil hmem).elim
      · exact (List.length_eq_zero_iff.mp (Nat.le_zero.mp hlength)).symm
  | cons size sizes ih =>
      obtain ⟨rest, hcontent, hrest, hempty⟩ := hdelivers state size content hpending hfit.1
      obtain ⟨hbeginning, hall⟩ := ih hrest hfit.2
      simp only [Stream.reads, List.flatten_cons]
      generalize (read size state).1 = chunk at hcontent hempty ⊢
      subst hcontent
      refine ⟨(List.prefix_append_right_inj chunk).mpr hbeginning, ?_⟩
      intro henough
      have hrest : [] ∈ (Stream.reads read sizes (read size state).2).1 ∨
          rest.length ≤ sizes.length := by
        rcases henough with hmem | hlength
        · rcases List.mem_cons.mp hmem with heq | hmem
          · obtain ⟨-, rfl⟩ := List.append_eq_nil_iff.mp (hempty heq.symm)
            exact .inr (Nat.zero_le _)
          · exact .inl hmem
        · cases chunk with
          | nil =>
              obtain rfl : rest = [] := hempty rfl
              exact .inr (Nat.zero_le _)
          | cons head tail =>
              simp only [List.length_append, List.length_cons] at hlength
              exact .inr (by omega)
      rw [hall hrest]

/-- What every read keeps, reads keep. -/
theorem reads_keep {holds : State → Prop}
    (hkeep : ∀ state size, holds state → holds (read size state).2) {state : State}
    (hstate : holds state) (sizes : List Nat) : holds (reads read sizes state).2 := by
  induction sizes generalizing state with
  | nil => exact hstate
  | cons size sizes ih => exact ih (hkeep state size hstate)

/-- Where a read returns nothing only at the end, and the end is for good, reads of which one
returned nothing have come to the end. -/
theorem Delivers.reads_ended (hdelivers : Delivers read fits pending) (ended : State → Prop)
    (hend : ∀ state size content, pending state content → fits state size →
      (read size state).1 = [] → ended (read size state).2)
    (hkeep : ∀ state size, ended state → ended (read size state).2) {state : State}
    {content : List β} {sizes : List Nat} (hpending : pending state content)
    (hfit : AllFit read fits state sizes) (hempty : [] ∈ (Stream.reads read sizes state).1) :
    ended (Stream.reads read sizes state).2 := by
  induction sizes generalizing state content with
  | nil => exact (List.not_mem_nil hempty).elim
  | cons size sizes ih =>
      rcases List.mem_cons.mp hempty with hfirst | hlater
      · exact reads_keep hkeep (hend state size content hpending hfit.1 hfirst.symm) sizes
      · obtain ⟨rest, -, hrest, -⟩ := hdelivers state size content hpending hfit.1
        exact ih hrest hfit.2 hlater

end Reads

end Foundation.Stream
