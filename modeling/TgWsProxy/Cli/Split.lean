import Mathlib.Data.List.Induction
import TgWsProxy.Foundation.Text

/-!
# Argument lines

An embedder has a text field where the binary has an argument list, and splits its line
the way a shell does. The scanner of the source looks at the character behind a
backslash at once; `Cursor` is the same scanner as an automaton that takes one character
at a time, and the rest of the development reasons about it.
-/

namespace TgWsProxy.Cli

open Foundation

def trailingBackslash : String := "trailing backslash in argument list"

def unclosedQuote : String := "unclosed quote in argument list"

/-- The local variables of `split_cli_args`. -/
structure Scan where
  args : List Text
  cur : Text
  started : Bool
  inSingle : Bool
  inDouble : Bool

def Scan.start : Scan := ⟨[], [], false, false, false⟩

def Scan.push (scan : Scan) (c : Char) : Scan :=
  { scan with cur := scan.cur ++ [c], started := true }

/-- The token that white space ends. -/
def Scan.finish (scan : Scan) : Scan :=
  if scan.started then { scan with args := scan.args ++ [scan.cur], cur := [], started := false }
  else scan

/-- The arms of the `match` in `split_cli_args`. -/
inductive Arm
  | singleQuote
  | doubleQuote
  | gap
  | backslash
  | other
  deriving DecidableEq, Repr

/-- The guards, in their order. -/
def Scan.arm (scan : Scan) (c : Char) : Arm :=
  if c = '\'' && !scan.inDouble then .singleQuote
  else if c = '"' && !scan.inSingle then .doubleQuote
  else if Text.isWhitespace c && !scan.inSingle && !scan.inDouble then .gap
  else if c = '\\' && !scan.inSingle then .backslash
  else .other

def Scan.loop (scan : Scan) : Text → Except String (List Text)
  | [] =>
      if scan.inSingle || scan.inDouble then .error unclosedQuote
      else .ok (if scan.started then scan.args ++ [scan.cur] else scan.args)
  | c :: rest =>
      match scan.arm c with
      | .singleQuote => loop { scan with inSingle := !scan.inSingle, started := true } rest
      | .doubleQuote => loop { scan with inDouble := !scan.inDouble, started := true } rest
      | .gap => loop scan.finish rest
      | .backslash =>
          match rest with
          | next :: rest => loop (scan.push next) rest
          | [] => .error trailingBackslash
      | .other => loop (scan.push c) rest

def splitCliArgs (line : Text) : Except String (List Text) := Scan.start.loop line

/-! ## The scanner as an automaton -/

inductive Mode
  | bare
  | bareEscape
  | single
  | double
  | doubleEscape
  deriving DecidableEq, Repr

def Mode.feed : Mode → Char → Mode
  | .bare, c =>
      if c = '\'' then .single else if c = '"' then .double
      else if c = '\\' then .bareEscape else .bare
  | .bareEscape, _ => .bare
  | .single, c => if c = '\'' then .bare else .single
  | .double, c => if c = '"' then .bare else if c = '\\' then .doubleEscape else .double
  | .doubleEscape, _ => .double

/-- The characters that stand for themselves. -/
def Mode.Plain : Mode → Char → Prop
  | .bare, c => c ≠ '\'' ∧ c ≠ '"' ∧ c ≠ '\\' ∧ Text.isWhitespace c = false
  | .single, c => c ≠ '\''
  | .double, c => c ≠ '"' ∧ c ≠ '\\'
  | .bareEscape, _ | .doubleEscape, _ => False

structure Cursor where
  args : List Text
  cur : Text
  started : Bool
  mode : Mode

def Cursor.push (cursor : Cursor) (c : Char) : Cursor :=
  { cursor with cur := cursor.cur ++ [c], started := true }

def Cursor.finish (cursor : Cursor) : Cursor :=
  if cursor.started then
    { cursor with args := cursor.args ++ [cursor.cur], cur := [], started := false }
  else cursor

/-- The text and the tokens; the mode is `Mode.feed`'s. -/
def Cursor.read (cursor : Cursor) (c : Char) : Cursor :=
  match cursor.mode with
  | .bare =>
      if c = '\'' ∨ c = '"' then { cursor with started := true }
      else if Text.isWhitespace c then cursor.finish
      else if c = '\\' then cursor else cursor.push c
  | .single => if c = '\'' then { cursor with started := true } else cursor.push c
  | .double =>
      if c = '"' then { cursor with started := true }
      else if c = '\\' then cursor else cursor.push c
  | .bareEscape | .doubleEscape => cursor.push c

def Cursor.feed (cursor : Cursor) (c : Char) : Cursor :=
  { cursor.read c with mode := cursor.mode.feed c }

def Cursor.conclude (cursor : Cursor) : Except String (List Text) :=
  match cursor.mode with
  | .bare => .ok (if cursor.started then cursor.args ++ [cursor.cur] else cursor.args)
  | .bareEscape | .doubleEscape => .error trailingBackslash
  | .single | .double => .error unclosedQuote

def Cursor.start : Cursor := ⟨[], [], false, .bare⟩

theorem ne_mark_of_isWhitespace {c : Char} (hspace : Text.isWhitespace c = true) :
    c ≠ '\'' ∧ c ≠ '"' ∧ c ≠ '\\' := by
  refine ⟨?_, ?_, ?_⟩ <;>
  · rintro rfl
    revert hspace
    decide

section Feed

variable {cursor : Cursor} {c : Char}

theorem Cursor.feed_space (hmode : cursor.mode = .bare) (hspace : Text.isWhitespace c = true) :
    cursor.feed c = cursor.finish := by
  obtain ⟨hsingle, hdouble, hbackslash⟩ := ne_mark_of_isWhitespace hspace
  obtain ⟨args, cur, started, mode⟩ := cursor
  subst hmode
  cases started <;>
    simp [Cursor.feed, Cursor.read, Mode.feed, Cursor.finish, hsingle, hdouble, hbackslash, hspace]

theorem Cursor.feed_plain (hplain : cursor.mode.Plain c) : cursor.feed c = cursor.push c := by
  obtain ⟨args, cur, started, mode⟩ := cursor
  cases mode with
  | bare =>
      obtain ⟨hsingle, hdouble, hbackslash, hspace⟩ := hplain
      simp [Cursor.feed, Cursor.read, Mode.feed, Cursor.push, hsingle, hdouble, hbackslash, hspace]
  | single =>
      have hsingle : c ≠ '\'' := hplain
      simp [Cursor.feed, Cursor.read, Mode.feed, Cursor.push, hsingle]
  | double =>
      obtain ⟨hdouble, hbackslash⟩ := hplain
      simp [Cursor.feed, Cursor.read, Mode.feed, Cursor.push, hdouble, hbackslash]
  | bareEscape | doubleEscape => exact hplain.elim

end Feed

/-- The variables of the source as a cursor. -/
def Scan.cursor (scan : Scan) : Cursor where
  args := scan.args
  cur := scan.cur
  started := scan.started
  mode := if scan.inSingle then .single else if scan.inDouble then .double else .bare

/-- Not both kinds of quotes are open. -/
def Scan.Sound (scan : Scan) : Prop := (scan.inSingle && scan.inDouble) = false

/-- What an arm says about its character. -/
theorem Scan.arm_spec (scan : Scan) (c : Char) :
    match scan.arm c with
    | .singleQuote => c = '\'' ∧ scan.inDouble = false
    | .doubleQuote => c = '"' ∧ scan.inSingle = false
    | .gap => Text.isWhitespace c = true ∧ scan.inSingle = false ∧ scan.inDouble = false
    | .backslash => c = '\\' ∧ scan.inSingle = false
    | .other => (c = '\'' → scan.inDouble = true) ∧ (c = '"' → scan.inSingle = true) ∧
        (Text.isWhitespace c = true → scan.inSingle = false → scan.inDouble = true) ∧
        (c = '\\' → scan.inSingle = true) := by
  unfold Scan.arm
  split_ifs with hsingle hdouble hgap hbackslash
  · simpa using hsingle
  · simpa using hdouble
  · simpa [and_assoc] using hgap
  · simpa using hbackslash
  · simp only [Bool.and_eq_true, decide_eq_true_eq, Bool.not_eq_true', not_and,
      Bool.not_eq_false] at hsingle hdouble hgap hbackslash
    exact ⟨hsingle, hdouble, fun hspace hopen => hgap ⟨hspace, hopen⟩, hbackslash⟩

section Arms

variable {scan : Scan} {c : Char}

theorem Scan.feed_singleQuote (hsound : scan.Sound) (harm : scan.arm c = .singleQuote) :
    scan.cursor.feed c =
        ({ scan with inSingle := !scan.inSingle, started := true } : Scan).cursor ∧
      ({ scan with inSingle := !scan.inSingle, started := true } : Scan).Sound := by
  have hspec := scan.arm_spec c
  rw [harm] at hspec
  obtain ⟨args, cur, started, inSingle, inDouble⟩ := scan
  obtain ⟨rfl, rfl⟩ := hspec
  cases inSingle with
  | true => exact ⟨rfl, rfl⟩
  | false => exact ⟨rfl, rfl⟩

theorem Scan.feed_doubleQuote (hsound : scan.Sound) (harm : scan.arm c = .doubleQuote) :
    scan.cursor.feed c =
        ({ scan with inDouble := !scan.inDouble, started := true } : Scan).cursor ∧
      ({ scan with inDouble := !scan.inDouble, started := true } : Scan).Sound := by
  have hspec := scan.arm_spec c
  rw [harm] at hspec
  obtain ⟨args, cur, started, inSingle, inDouble⟩ := scan
  obtain ⟨rfl, rfl⟩ := hspec
  cases inDouble with
  | true => exact ⟨rfl, rfl⟩
  | false => exact ⟨rfl, rfl⟩

theorem Scan.feed_gap (harm : scan.arm c = .gap) :
    scan.cursor.feed c = scan.finish.cursor ∧ scan.finish.Sound := by
  have hspec := scan.arm_spec c
  rw [harm] at hspec
  obtain ⟨args, cur, started, inSingle, inDouble⟩ := scan
  obtain ⟨hspace, rfl, rfl⟩ := hspec
  have hfeed := @Cursor.feed_space ⟨args, cur, started, .bare⟩ c rfl hspace
  refine ⟨hfeed.trans ?_, ?_⟩
  · cases started <;> rfl
  · cases started <;> rfl

theorem Scan.feed_backslash (harm : scan.arm c = .backslash) :
    (scan.cursor.feed c).conclude = .error trailingBackslash ∧
      ∀ next, (scan.cursor.feed c).feed next = (scan.push next).cursor := by
  have hspec := scan.arm_spec c
  rw [harm] at hspec
  obtain ⟨args, cur, started, inSingle, inDouble⟩ := scan
  obtain ⟨rfl, rfl⟩ := hspec
  cases inDouble with
  | true => exact ⟨rfl, fun _ => rfl⟩
  | false => exact ⟨rfl, fun _ => rfl⟩

theorem Scan.feed_other (hsound : scan.Sound) (harm : scan.arm c = .other) :
    scan.cursor.feed c = (scan.push c).cursor := by
  have hspec := scan.arm_spec c
  rw [harm] at hspec
  obtain ⟨args, cur, started, inSingle, inDouble⟩ := scan
  obtain ⟨hsingle, hdouble, hgap, hbackslash⟩ := hspec
  cases inSingle with
  | true =>
      cases inDouble with
      | true => cases hsound
      | false =>
          apply Cursor.feed_plain
          intro hquote
          cases hsingle hquote
  | false =>
      have hnotDouble : c ≠ '"' := by
        intro hquote
        cases hdouble hquote
      have hnotBackslash : c ≠ '\\' := by
        intro hescape
        cases hbackslash hescape
      cases inDouble with
      | true =>
          apply Cursor.feed_plain
          exact ⟨hnotDouble, hnotBackslash⟩
      | false =>
          apply Cursor.feed_plain
          refine ⟨?_, hnotDouble, hnotBackslash, eq_false_of_ne_true ?_⟩
          · intro hquote
            cases hsingle hquote
          · intro hspace
            cases hgap hspace rfl

end Arms

theorem Scan.loop_eq_conclude (scan : Scan) (text : Text) (hsound : scan.Sound) :
    scan.loop text = (text.foldl Cursor.feed scan.cursor).conclude := by
  fun_induction Scan.loop scan text with
  | case1 scan hopen =>
      obtain ⟨args, cur, started, inSingle, inDouble⟩ := scan
      cases inSingle <;> cases inDouble <;> first | rfl | cases hopen
  | case2 scan hclosed =>
      obtain ⟨args, cur, started, inSingle, inDouble⟩ := scan
      cases inSingle <;> cases inDouble <;> first | rfl | exact (hclosed rfl).elim
  | case3 scan c rest harm ih =>
      obtain ⟨hfeed, hnext⟩ := Scan.feed_singleQuote hsound harm
      rw [ih hnext, List.foldl_cons, hfeed]
  | case4 scan c rest harm ih =>
      obtain ⟨hfeed, hnext⟩ := Scan.feed_doubleQuote hsound harm
      rw [ih hnext, List.foldl_cons, hfeed]
  | case5 scan c rest harm ih =>
      obtain ⟨hfeed, hnext⟩ := Scan.feed_gap harm
      rw [ih hnext, List.foldl_cons, hfeed]
  | case6 scan c harm next rest ih =>
      rw [ih hsound, List.foldl_cons, List.foldl_cons, (Scan.feed_backslash harm).2]
  | case7 scan c harm => exact (Scan.feed_backslash harm).1.symm
  | case8 scan c rest harm ih =>
      rw [ih hsound, List.foldl_cons, Scan.feed_other hsound harm]

theorem splitCliArgs_eq (line : Text) :
    splitCliArgs line = (line.foldl Cursor.feed Cursor.start).conclude :=
  Scan.loop_eq_conclude Scan.start line rfl

end TgWsProxy.Cli
