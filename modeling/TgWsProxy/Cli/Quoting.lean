import TgWsProxy.Cli.Split

/-!
# Quoting

A line is a sequence of pieces, each a plain character, an escaped one or a quotation,
and a tail that is left unfinished. The splitter rejects a line exactly for its tail; and
it gives back every list of arguments that was written down in one of the usual styles.
-/

namespace TgWsProxy.Cli

open Foundation

/-! ## The grammar of lines -/

/-- A piece of a double quotation. -/
inductive Inner
  | plain (c : Char) (hplain : c ≠ '"' ∧ c ≠ '\\')
  | escaped (c : Char)

def Inner.text : Inner → Text
  | .plain c _ => [c]
  | .escaped c => ['\\', c]

inductive Piece
  | plain (c : Char) (hplain : c ≠ '\'' ∧ c ≠ '"' ∧ c ≠ '\\')
  | escaped (c : Char)
  | single (body : Text) (hbody : '\'' ∉ body)
  | double (body : List Inner)

def Piece.text : Piece → Text
  | .plain c _ => [c]
  | .escaped c => ['\\', c]
  | .single body _ => '\'' :: body ++ ['\'']
  | .double body => '"' :: body.flatMap Inner.text ++ ['"']

/-- What comes after the last piece: nothing, a backslash, or an open quotation with or
without a backslash at its end. -/
inductive Tail
  | closed
  | backslash
  | single (body : Text) (hbody : '\'' ∉ body)
  | double (body : List Inner)
  | doubleBackslash (body : List Inner)

namespace Tail

def text : Tail → Text
  | .closed => []
  | .backslash => ['\\']
  | .single body _ => '\'' :: body
  | .double body => '"' :: body.flatMap Inner.text
  | .doubleBackslash body => '"' :: body.flatMap Inner.text ++ ['\\']

def mode : Tail → Mode
  | .closed => .bare
  | .backslash => .bareEscape
  | .single _ _ => .single
  | .double _ => .double
  | .doubleBackslash _ => .doubleEscape

def LeavesQuoteOpen : Tail → Prop
  | .closed | .backslash => False
  | .single _ _ | .double _ | .doubleBackslash _ => True

def EndsInBackslash : Tail → Prop
  | .backslash | .doubleBackslash _ => True
  | .closed | .single _ _ | .double _ => False

end Tail

def Reads (line : Text) (pieces : List Piece) (tail : Tail) : Prop :=
  line = pieces.flatMap Piece.text ++ tail.text

/-- A quote of the line is left open. -/
def LeavesQuoteOpen (line : Text) : Prop :=
  ∃ pieces tail, Reads line pieces tail ∧ tail.LeavesQuoteOpen

/-- The line ends in an unescaped backslash outside single quotes. -/
def EndsInBackslash (line : Text) : Prop :=
  ∃ pieces tail, Reads line pieces tail ∧ tail.EndsInBackslash

/-! ## The mode of a line -/

theorem Inner.feed (inner : Inner) : inner.text.foldl Mode.feed .double = .double := by
  cases inner with
  | plain c hplain => simp [Inner.text, Mode.feed, hplain.1, hplain.2]
  | escaped c => rfl

theorem Inner.feed_all (body : List Inner) :
    (body.flatMap Inner.text).foldl Mode.feed .double = .double := by
  induction body with
  | nil => rfl
  | cons inner body ih => rw [List.flatMap_cons, List.foldl_append, inner.feed, ih]

theorem feed_single {body : Text} (hbody : '\'' ∉ body) :
    body.foldl Mode.feed .single = .single := by
  induction body with
  | nil => rfl
  | cons c body ih =>
      rw [List.mem_cons, not_or] at hbody
      rw [List.foldl_cons, Mode.feed, if_neg (Ne.symm hbody.1), ih hbody.2]

theorem Piece.feed (piece : Piece) : piece.text.foldl Mode.feed .bare = .bare := by
  cases piece with
  | plain c hplain => simp [Piece.text, Mode.feed, hplain.1, hplain.2.1, hplain.2.2]
  | escaped c => rfl
  | single body hbody =>
      change (body ++ ['\'']).foldl Mode.feed .single = .bare
      rw [List.foldl_append, feed_single hbody]
      rfl
  | double body =>
      change (body.flatMap Inner.text ++ ['"']).foldl Mode.feed .double = .bare
      rw [List.foldl_append, Inner.feed_all]
      rfl

theorem Piece.feed_all (pieces : List Piece) :
    (pieces.flatMap Piece.text).foldl Mode.feed .bare = .bare := by
  induction pieces with
  | nil => rfl
  | cons piece pieces ih => rw [List.flatMap_cons, List.foldl_append, piece.feed, ih]

theorem Tail.feed (tail : Tail) : tail.text.foldl Mode.feed .bare = tail.mode := by
  cases tail with
  | closed => rfl
  | backslash => rfl
  | single body hbody => exact feed_single hbody
  | double body => exact Inner.feed_all body
  | doubleBackslash body =>
      change (body.flatMap Inner.text ++ ['\\']).foldl Mode.feed .double = .doubleEscape
      rw [List.foldl_append, Inner.feed_all]
      rfl

theorem Reads.mode {line : Text} {pieces : List Piece} {tail : Tail}
    (hreads : Reads line pieces tail) : line.foldl Mode.feed .bare = tail.mode := by
  rw [hreads, List.foldl_append, Piece.feed_all, tail.feed]

/-- One more character extends the tail, or completes it to a piece. -/
theorem Reads.concat {line : Text} {pieces : List Piece} {tail : Tail}
    (hreads : Reads line pieces tail) (c : Char) :
    ∃ pieces tail, Reads (line ++ [c]) pieces tail := by
  have hline : line = pieces.flatMap Piece.text ++ tail.text := hreads
  have extend (piece : Piece) (hpiece : piece.text = tail.text ++ [c]) :
      ∃ pieces tail, Reads (line ++ [c]) pieces tail :=
    ⟨pieces ++ [piece], .closed, by
      rw [hline]
      simp only [Reads, List.flatMap_append, List.flatMap_singleton, hpiece, List.append_assoc]
      rfl⟩
  have grow (next : Tail) (hnext : next.text = tail.text ++ [c]) :
      ∃ pieces tail, Reads (line ++ [c]) pieces tail :=
    ⟨pieces, next, by rw [hline]; simp [Reads, hnext]⟩
  cases tail with
  | closed =>
      by_cases hsingle : c = '\''
      · exact grow (.single [] nofun) (by simp [Tail.text, hsingle])
      · by_cases hdouble : c = '"'
        · exact grow (.double []) (by simp [Tail.text, hdouble])
        · by_cases hbackslash : c = '\\'
          · exact grow .backslash (by simp [Tail.text, hbackslash])
          · exact extend (.plain c ⟨hsingle, hdouble, hbackslash⟩) rfl
  | backslash => exact extend (.escaped c) rfl
  | single body hbody =>
      by_cases hsingle : c = '\''
      · exact extend (.single body hbody) (by simp [Tail.text, Piece.text, hsingle])
      · exact grow (.single (body ++ [c]) (by simp [hbody, Ne.symm hsingle])) rfl
  | double body =>
      by_cases hdouble : c = '"'
      · exact extend (.double body) (by simp [Tail.text, Piece.text, hdouble])
      · by_cases hbackslash : c = '\\'
        · exact grow (.doubleBackslash body) (by simp [Tail.text, hbackslash])
        · exact grow (.double (body ++ [.plain c ⟨hdouble, hbackslash⟩]))
            (by simp [Tail.text, Inner.text])
  | doubleBackslash body =>
      exact grow (.double (body ++ [.escaped c])) (by simp [Tail.text, Inner.text])

theorem exists_reads (line : Text) : ∃ pieces tail, Reads line pieces tail := by
  induction line using List.reverseRecOn with
  | nil => exact ⟨[], .closed, rfl⟩
  | append_singleton line c ih =>
      obtain ⟨pieces, tail, hreads⟩ := ih
      exact hreads.concat c

theorem Tail.leavesQuoteOpen_congr {tail other : Tail} (hmode : tail.mode = other.mode) :
    tail.LeavesQuoteOpen ↔ other.LeavesQuoteOpen := by
  cases tail <;> cases other <;> first | exact Iff.rfl | cases hmode

theorem Tail.endsInBackslash_congr {tail other : Tail} (hmode : tail.mode = other.mode) :
    tail.EndsInBackslash ↔ other.EndsInBackslash := by
  cases tail <;> cases other <;> first | exact Iff.rfl | cases hmode

theorem leavesQuoteOpen_iff {line : Text} {pieces : List Piece} {tail : Tail}
    (hreads : Reads line pieces tail) : LeavesQuoteOpen line ↔ tail.LeavesQuoteOpen := by
  constructor
  · rintro ⟨_, other, hother, hopen⟩
    exact (Tail.leavesQuoteOpen_congr (hreads.mode.symm.trans hother.mode)).mpr hopen
  · exact fun hopen => ⟨pieces, tail, hreads, hopen⟩

theorem endsInBackslash_iff {line : Text} {pieces : List Piece} {tail : Tail}
    (hreads : Reads line pieces tail) : EndsInBackslash line ↔ tail.EndsInBackslash := by
  constructor
  · rintro ⟨_, other, hother, hends⟩
    exact (Tail.endsInBackslash_congr (hreads.mode.symm.trans hother.mode)).mpr hends
  · exact fun hends => ⟨pieces, tail, hreads, hends⟩

theorem Cursor.mode_foldl (cursor : Cursor) (text : Text) :
    (text.foldl Cursor.feed cursor).mode = text.foldl Mode.feed cursor.mode := by
  induction text generalizing cursor with
  | nil => rfl
  | cons c text ih => exact ih (cursor.feed c)

/-- The outcome of a line, by its tail. -/
theorem splitCliArgs_of_reads {line : Text} {pieces : List Piece} {tail : Tail}
    (hreads : Reads line pieces tail) :
    match tail with
    | .closed => ∃ args, splitCliArgs line = .ok args
    | .backslash | .doubleBackslash _ => splitCliArgs line = .error trailingBackslash
    | .single _ _ | .double _ => splitCliArgs line = .error unclosedQuote := by
  have hmode := (Cursor.mode_foldl Cursor.start line).trans hreads.mode
  rw [splitCliArgs_eq]
  unfold Cursor.conclude
  cases tail <;> simp only [hmode, Tail.mode]
  exact ⟨_, rfl⟩

/-- A line is rejected exactly for a quote that it leaves open or a backslash at its
end, and the backslash comes first. -/
theorem splitCliArgs_error_iff (line : Text) :
    ((∃ message, splitCliArgs line = .error message) ↔
        LeavesQuoteOpen line ∨ EndsInBackslash line) ∧
      (splitCliArgs line = .error trailingBackslash ↔ EndsInBackslash line) := by
  obtain ⟨pieces, tail, hreads⟩ := exists_reads line
  rw [leavesQuoteOpen_iff hreads, endsInBackslash_iff hreads]
  have houtcome := splitCliArgs_of_reads hreads
  cases tail with
  | closed =>
      obtain ⟨args, hargs⟩ := houtcome
      simp [hargs, Tail.LeavesQuoteOpen, Tail.EndsInBackslash]
  | backslash | doubleBackslash =>
      simp [show splitCliArgs line = _ from houtcome, Tail.LeavesQuoteOpen, Tail.EndsInBackslash]
  | single | double =>
      simp [show splitCliArgs line = _ from houtcome, Tail.LeavesQuoteOpen, Tail.EndsInBackslash,
        unclosedQuote, trailingBackslash]

/-! ## Styles -/

inductive Style
  | single
  | double
  | backslash
  deriving DecidableEq, Repr

/-- A character of an argument in a style. Inside single quotes a quote is written by
closing them, an escaped quote, and opening them again. -/
def Style.escape : Style → Char → Text
  | .single, c => if c = '\'' then ['\'', '\\', '\'', '\''] else [c]
  | .double, c => if c = '"' ∨ c = '\\' then ['\\', c] else [c]
  | .backslash, c =>
      if Text.isWhitespace c = true ∨ c = '\'' ∨ c = '"' ∨ c = '\\' then ['\\', c] else [c]

def Style.quote : Style → Text → Text
  | .single, arg => '\'' :: (arg.flatMap Style.single.escape ++ ['\''])
  | .double, arg => '"' :: (arg.flatMap Style.double.escape ++ ['"'])
  | .backslash, arg => arg.flatMap Style.backslash.escape

/-- An argument as it is written on a line: the white space before it and its style. An
empty argument cannot be written with backslashes. -/
structure Written where
  gap : Text
  style : Style
  arg : Text
  blank : gap.Blank
  visible : style = .backslash → arg ≠ []

def writtenLine (arguments : List Written) (trail : Text) : Text :=
  arguments.flatMap (fun written => written.gap ++ written.style.quote written.arg) ++ trail

namespace Cursor

variable {cursor : Cursor}

/-- The cursor behind some text of the current token. -/
def write (cursor : Cursor) (text : Text) : Cursor := { cursor with cur := cursor.cur ++ text }

/-- The mode in which a style writes its characters. -/
def inside : Style → Mode
  | .single => .single
  | .double => .double
  | .backslash => .bare

theorem feed_escape (hmode : cursor.mode = .bare ∨ cursor.mode = .double) (c : Char) :
    ['\\', c].foldl feed cursor = cursor.push c := by
  obtain ⟨args, cur, started, mode⟩ := cursor
  rcases hmode with rfl | rfl
  · rfl
  · rfl

/-- In every style the scanner takes the characters of an argument into the token. -/
theorem foldl_escape (style : Style) (hmode : cursor.mode = inside style) (c : Char) :
    (style.escape c).foldl feed cursor = cursor.push c := by
  unfold Style.escape
  cases style with
  | single =>
      obtain ⟨args, cur, started, mode⟩ := cursor
      subst hmode
      dsimp only
      split
      next hquote =>
        subst hquote
        rfl
      next hquote => exact feed_plain hquote
  | double =>
      dsimp only
      split
      next => exact feed_escape (.inr hmode) c
      next hplain =>
        apply feed_plain
        rw [hmode]
        exact not_or.mp hplain
  | backslash =>
      dsimp only
      split
      next => exact feed_escape (.inl hmode) c
      next hplain =>
        simp only [not_or, Bool.not_eq_true] at hplain
        obtain ⟨hspace, hsingle, hdouble, hbackslash⟩ := hplain
        apply feed_plain
        rw [hmode]
        exact ⟨hsingle, hdouble, hbackslash, hspace⟩

theorem foldl_flatMap_escape (style : Style) (hstarted : cursor.started = true)
    (hmode : cursor.mode = inside style) (arg : Text) :
    (arg.flatMap style.escape).foldl feed cursor = cursor.write arg := by
  induction arg generalizing cursor with
  | nil => simp [write]
  | cons c arg ih =>
      rw [List.flatMap_cons, List.foldl_append, foldl_escape style hmode,
        @ih (cursor.push c) rfl hmode]
      simp [write, push, hstarted]

theorem foldl_quote (hmode : cursor.mode = .bare) (written : Written) :
    (written.style.quote written.arg).foldl feed cursor =
      { cursor.write written.arg with started := true } := by
  obtain ⟨gap, style, arg, blank, visible⟩ := written
  cases style with
  | single =>
      obtain ⟨args, cur, started, mode⟩ := cursor
      subst hmode
      dsimp only [Style.quote]
      rw [List.foldl_cons, List.foldl_append, foldl_flatMap_escape .single rfl rfl]
      rfl
  | double =>
      obtain ⟨args, cur, started, mode⟩ := cursor
      subst hmode
      dsimp only [Style.quote]
      rw [List.foldl_cons, List.foldl_append, foldl_flatMap_escape .double rfl rfl]
      rfl
  | backslash =>
      -- The first character starts the token.
      cases arg with
      | nil => exact (visible rfl rfl).elim
      | cons c arg =>
          dsimp only [Style.quote]
          rw [List.flatMap_cons, List.foldl_append, foldl_escape .backslash hmode,
            @foldl_flatMap_escape (cursor.push c) .backslash rfl hmode]
          simp [write, push]

theorem finish_finish (cursor : Cursor) : cursor.finish.finish = cursor.finish := by
  obtain ⟨args, cur, started, mode⟩ := cursor
  cases started <;> rfl

theorem finish_mode (hmode : cursor.mode = .bare) : cursor.finish.mode = .bare := by
  unfold finish
  split
  next => exact hmode
  next => exact hmode

theorem foldl_blank (hmode : cursor.mode = .bare) {gap : Text} (hgap : gap.Blank)
    (hne : gap ≠ []) : gap.foldl feed cursor = cursor.finish := by
  induction gap generalizing cursor with
  | nil => exact (hne rfl).elim
  | cons c gap ih =>
      obtain ⟨hspace, hgap⟩ := List.forall_mem_cons.mp hgap
      rw [List.foldl_cons, feed_space hmode hspace]
      by_cases hlast : gap = []
      · rw [hlast, List.foldl_nil]
      · rw [ih (finish_mode hmode) hgap hlast, finish_finish]

/-- The tokens of a cursor outside quotes, if the line ended here. -/
def tokens (cursor : Cursor) : List Text :=
  if cursor.started then cursor.args ++ [cursor.cur] else cursor.args

theorem tokens_finish (cursor : Cursor) : cursor.finish.tokens = cursor.tokens := by
  obtain ⟨args, cur, started, mode⟩ := cursor
  cases started <;> rfl

/-- White space before a token that is set apart from the last one. -/
theorem foldl_gap (hmode : cursor.mode = .bare) (hcur : cursor.started = false → cursor.cur = [])
    {gap : Text} (hgap : gap.Blank) (happart : cursor.started = true → gap ≠ []) :
    gap.foldl feed cursor = ⟨cursor.tokens, [], false, .bare⟩ := by
  obtain ⟨args, cur, started, mode⟩ := cursor
  subst hmode
  cases started with
  | true => exact foldl_blank rfl hgap (happart rfl)
  | false =>
      obtain rfl : cur = [] := hcur rfl
      by_cases hne : gap = []
      · rw [hne]
        rfl
      · exact foldl_blank rfl hgap hne

theorem conclude_bare (hmode : cursor.mode = .bare) : cursor.conclude = .ok cursor.tokens := by
  unfold conclude
  rw [hmode]
  rfl

theorem foldl_trail (hmode : cursor.mode = .bare) {trail : Text} (htrail : trail.Blank) :
    (trail.foldl feed cursor).conclude = .ok cursor.tokens := by
  by_cases hne : trail = []
  · rw [hne]
    exact conclude_bare hmode
  · rw [foldl_blank hmode htrail hne, conclude_bare (finish_mode hmode), tokens_finish]

/-- Arguments that are set apart from each other, from any cursor that they are set
apart from. -/
theorem conclude_writtenLine (hmode : cursor.mode = .bare)
    (hcur : cursor.started = false → cursor.cur = []) (arguments : List Written) {trail : Text}
    (htrail : trail.Blank) (hgaps : ∀ written ∈ arguments.tail, written.gap ≠ [])
    (happart : cursor.started = true → ∀ written ∈ arguments.head?, written.gap ≠ []) :
    ((writtenLine arguments trail).foldl feed cursor).conclude =
      .ok (cursor.tokens ++ arguments.map Written.arg) := by
  induction arguments generalizing cursor with
  | nil =>
      rw [List.map_nil, List.append_nil]
      exact foldl_trail hmode htrail
  | cons written arguments ih =>
      have hline : writtenLine (written :: arguments) trail =
          written.gap ++ (written.style.quote written.arg ++ writtenLine arguments trail) := by
        simp [writtenLine]
      have hquote : (written.style.quote written.arg).foldl feed ⟨cursor.tokens, [], false, .bare⟩ =
          ⟨cursor.tokens, written.arg, true, .bare⟩ := foldl_quote rfl written
      rw [hline, List.foldl_append, List.foldl_append,
        foldl_gap hmode hcur written.blank fun hstarted => happart hstarted written rfl, hquote, ih]
      · simp [tokens]
      · rfl
      · nofun
      · exact fun later hlater => hgaps later (List.mem_of_mem_tail hlater)
      · exact fun _ later hlater => hgaps later (List.mem_of_mem_head? hlater)

end Cursor

/-- Splitting undoes quoting: any arguments, each in any style and set apart by white
space, come back as they were. A line is rejected exactly when it leaves a quote open or
ends in an unescaped backslash outside single quotes. -/
theorem split_cli_args_undoes_quoting :
    (∀ (arguments : List Written) (trail : Text), trail.Blank →
      (∀ written ∈ arguments.tail, written.gap ≠ []) →
      splitCliArgs (writtenLine arguments trail) = .ok (arguments.map Written.arg)) ∧
    ∀ line, (∃ message, splitCliArgs line = .error message) ↔
      LeavesQuoteOpen line ∨ EndsInBackslash line := by
  constructor
  · intro arguments trail htrail hgaps
    rw [splitCliArgs_eq]
    exact Cursor.conclude_writtenLine rfl (fun _ => rfl) arguments htrail hgaps nofun
  · intro line
    exact (splitCliArgs_error_iff line).1

theorem split_cli_args_undoes_quoting_three_styles :
    splitCliArgs ['\'', 'i', 't', '\'', '\\', '\'', '\'', 's', '\'', ' ', '"', '"', '\t', 'a', '\\',
      ' ', '\n'] = .ok [['i', 't', '\'', 's'], [], ['a', ' ']] :=
  split_cli_args_undoes_quoting.1
    [⟨[], .single, ['i', 't', '\'', 's'], by decide, by decide⟩,
      ⟨[' '], .double, [], by decide, by decide⟩,
      ⟨['\t'], .backslash, ['a', ' '], by decide, by decide⟩] ['\n'] (by decide) (by decide)

end TgWsProxy.Cli
