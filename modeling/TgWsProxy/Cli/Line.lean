import TgWsProxy.Cli.Quoting

/-!
# The command line of an embedder

`Config::try_from_cli_line` trims its line before it is split, when escapes are not
understood yet. White space at the start of a line never matters; white space at its end
does when the character before it is a backslash that escapes it.
-/

namespace TgWsProxy.Cli

open Foundation

/-- The tokens that `Config::try_from_cli_line` works from. -/
def cliTokens (line : Text) : Except String (List Text) := splitCliArgs line.trim

/-- `Config::try_from_cli_line`, with what it does to an argument list as a parameter. -/
def tryFromCliLine {Parsed : Type} (tryParseFrom : List Text → Except String Parsed)
    (line : Text) : Except String Parsed := do
  let tokens ← cliTokens line
  let args := match tokens.head? with
    | some first => if ['-'].isPrefixOf first then "tg-ws-proxy".toList :: tokens else tokens
    | none => "tg-ws-proxy".toList :: tokens
  tryParseFrom args

theorem EndsInBackslash.exists_concat {line : Text} (hends : EndsInBackslash line) :
    ∃ body, line = body ++ ['\\'] := by
  obtain ⟨pieces, tail, hreads, htail⟩ := hends
  have hline : line = pieces.flatMap Piece.text ++ tail.text := hreads
  cases tail with
  | backslash => exact ⟨_, hline⟩
  | doubleBackslash body =>
      refine ⟨pieces.flatMap Piece.text ++ '"' :: body.flatMap Inner.text, ?_⟩
      rw [hline, List.append_assoc]
      rfl
  | closed | single | double => exact htail.elim

/-- White space at the start of a line is skipped. -/
theorem splitCliArgs_blank_append {lead : Text} (hlead : lead.Blank) (line : Text) :
    splitCliArgs (lead ++ line) = splitCliArgs line := by
  rw [splitCliArgs_eq, splitCliArgs_eq, List.foldl_append]
  congr 2
  exact Cursor.foldl_gap rfl (fun _ => rfl) hlead nofun

/-- White space outside of escapes keeps the mode. -/
theorem Mode.foldl_blank {mode : Mode} (hmode : mode ≠ .bareEscape ∧ mode ≠ .doubleEscape)
    {gap : Text} (hgap : gap.Blank) : gap.foldl Mode.feed mode = mode := by
  induction gap with
  | nil => rfl
  | cons c gap ih =>
      obtain ⟨hspace, hgap⟩ := List.forall_mem_cons.mp hgap
      obtain ⟨hsingle, hdouble, hbackslash⟩ := ne_mark_of_isWhitespace hspace
      have hfeed : mode.feed c = mode := by
        cases mode with
        | bareEscape => exact (hmode.1 rfl).elim
        | doubleEscape => exact (hmode.2 rfl).elim
        | bare | single | double => simp [Mode.feed, hsingle, hdouble, hbackslash]
      rw [List.foldl_cons, hfeed, ih hgap]

namespace Cursor

variable {cursor : Cursor} {trail : Text}

theorem conclude_unclosed (hmode : cursor.mode = .single ∨ cursor.mode = .double) :
    cursor.conclude = .error unclosedQuote := by
  unfold conclude
  rcases hmode with hmode | hmode
  · rw [hmode]
  · rw [hmode]

theorem conclude_backslash (hmode : cursor.mode = .bareEscape ∨ cursor.mode = .doubleEscape) :
    cursor.conclude = .error trailingBackslash := by
  unfold conclude
  rcases hmode with hmode | hmode
  · rw [hmode]
  · rw [hmode]

/-- White space at the end of a line is only seen by a backslash. -/
theorem conclude_trail (htrail : trail.Blank)
    (hmode : cursor.mode ≠ .bareEscape ∧ cursor.mode ≠ .doubleEscape) :
    (trail.foldl feed cursor).conclude = cursor.conclude := by
  have hkept : (trail.foldl feed cursor).mode = cursor.mode :=
    (mode_foldl cursor trail).trans (Mode.foldl_blank hmode htrail)
  cases hcase : cursor.mode with
  | bare => rw [foldl_trail hcase htrail, conclude_bare hcase]
  | single =>
      rw [conclude_unclosed (.inl hcase), conclude_unclosed (.inl (hkept.trans hcase))]
  | double =>
      rw [conclude_unclosed (.inr hcase), conclude_unclosed (.inr (hkept.trans hcase))]
  | bareEscape => exact (hmode.1 hcase).elim
  | doubleEscape => exact (hmode.2 hcase).elim

theorem conclude_escaped_trail (htrail : trail.Blank) (hne : trail ≠ [])
    (hmode : cursor.mode = .bareEscape ∨ cursor.mode = .doubleEscape) :
    (trail.foldl feed cursor).conclude ≠ cursor.conclude := by
  rw [conclude_backslash hmode]
  cases trail with
  | nil => exact (hne rfl).elim
  | cons c trail =>
      obtain ⟨-, htrail⟩ := List.forall_mem_cons.mp htrail
      rw [List.foldl_cons]
      rcases hmode with hmode | hmode
      · have hnext : (cursor.feed c).mode = .bare := congrArg (Mode.feed · c) hmode
        rw [foldl_trail hnext htrail]
        nofun
      · have hnext : (cursor.feed c).mode = .double := congrArg (Mode.feed · c) hmode
        rw [conclude_trail htrail (by simp [hnext]), conclude_unclosed (.inr hnext)]
        simp [unclosedQuote, trailingBackslash]

end Cursor

theorem endsInBackslash_iff_mode (line : Text) :
    EndsInBackslash line ↔ (line.foldl Cursor.feed Cursor.start).mode = .bareEscape ∨
      (line.foldl Cursor.feed Cursor.start).mode = .doubleEscape := by
  obtain ⟨pieces, tail, hreads⟩ := exists_reads line
  have hmode := (Cursor.mode_foldl Cursor.start line).trans hreads.mode
  rw [endsInBackslash_iff hreads, hmode]
  cases tail <;> simp [Tail.EndsInBackslash, Tail.mode]

/-- Trimming the line first changes nothing exactly when its end is not white space that
comes after an unescaped backslash. -/
theorem cli_line_trim_neutral_iff (line : Text) :
    cliTokens line = splitCliArgs line ↔
      ¬ (EndsInBackslash line.trim ∧ line.trimEnd ≠ line) := by
  obtain ⟨lead, trail, hlead, htrail, hline⟩ := line.exists_trim
  have hsplit : splitCliArgs line = (trail.foldl Cursor.feed
      (line.trim.foldl Cursor.feed Cursor.start)).conclude := by
    rw [hline, splitCliArgs_blank_append hlead, splitCliArgs_eq, List.foldl_append, ← hline]
  rw [cliTokens, splitCliArgs_eq line.trim, hsplit]
  by_cases hends : EndsInBackslash line.trim
  · have hmode := (endsInBackslash_iff_mode line.trim).mp hends
    by_cases hne : trail = []
    · have htrimmed : line.trimEnd = line := by
        obtain ⟨body, hbody⟩ := hends.exists_concat
        rw [hline, hne, List.append_nil, hbody, ← List.append_assoc]
        exact Text.trimEnd_concat_of_ne rfl
      simp [hne, htrimmed]
    · have hchanged : line.trimEnd ≠ line := by
        rw [hline, ← List.append_assoc]
        exact Text.trimEnd_append_ne htrail hne
      simp [hends, hchanged, (Cursor.conclude_escaped_trail htrail hne hmode).symm]
  · have hmode := not_or.mp ((endsInBackslash_iff_mode line.trim).not.mp hends)
    simp [hends, Cursor.conclude_trail htrail hmode]

/-- `a\ ` is one argument that ends in a space, and is rejected once it is trimmed. -/
theorem cli_line_escaped_space_rejected :
    splitCliArgs ['a', '\\', ' '] = .ok [['a', ' ']] ∧
      cliTokens ['a', '\\', ' '] = .error trailingBackslash :=
  ⟨rfl, rfl⟩

end TgWsProxy.Cli
