import TgWsProxy.Session.Model

/-!
# What a session leaves behind

Whatever the two directions do and whenever each of them ends, the peer has the
beginning of what the upload would have sent on its own, the log has the number of bytes
of the reads that were sent in full, and nothing is sent after the session is over.
-/

namespace TgWsProxy.Session

open Foundation Foundation.Transition

section Accounts

variable {Loop Output : Type} (machine : Transducer Loop (List UInt8) Output) (loop : Loop)
  (before opening : List Output)

/-- The reads, what the peer has of them, and how many bytes were counted. -/
inductive Handed (reads : List (List UInt8)) (accepted : List Output) : Nat → Prop
  /-- Nothing was read; the relay init may be missing. -/
  | opening (hreads : reads = []) (hleast : before <+: accepted)
      (hmost : accepted <+: before ++ opening) : Handed reads accepted 0
  /-- All reads were sent; of the rest, what the end of the stream brought out. -/
  | all {last : Loop} {outputs : List Output}
      (hfeed : machine.feed loop reads = some (last, outputs))
      (hleast : before ++ opening ++ outputs <+: accepted)
      (hmost : accepted <+: before ++ opening ++ outputs ++ machine.finish last) :
      Handed reads accepted reads.flatten.length
  /-- The last read was sent in part, and is not counted. -/
  | partly {counted : List (List UInt8)} {chunk : List UInt8} {last next : Loop}
      {outputs output : List Output} (hreads : reads = counted ++ [chunk])
      (hfeed : machine.feed loop counted = some (last, outputs))
      (hstep : machine.step last chunk = some (next, output))
      (hleast : before ++ opening ++ outputs <+: accepted)
      (hmost : accepted <+: before ++ opening ++ outputs ++ output)
      (hless : accepted ≠ before ++ opening ++ outputs ++ output) :
      Handed reads accepted counted.flatten.length
  /-- The loop broke down on the last read. -/
  | broken {counted : List (List UInt8)} {chunk : List UInt8} {last : Loop}
      {outputs : List Output} (hreads : reads = counted ++ [chunk])
      (hfeed : machine.feed loop counted = some (last, outputs))
      (hstep : machine.step last chunk = none)
      (haccepted : accepted = before ++ opening ++ outputs) :
      Handed reads accepted counted.flatten.length

variable {machine loop before opening} in
/-- Behind the relay init, the peer has the outputs of the reads that are counted and a
beginning of what comes next: the flush, or the outputs of one more read. -/
theorem Handed.split {reads : List (List UInt8)} {accepted : List Output} {count : Nat}
    (hhanded : Handed machine loop before opening reads accepted count)
    (hfeeds : (machine.feed loop reads).isSome) :
    (reads = [] ∧ count = 0 ∧ before <+: accepted ∧ accepted <+: before ++ opening) ∨
      ∃ counted last outputs sent unsent, machine.feed loop counted = some (last, outputs) ∧
        count = counted.flatten.length ∧ counted <+: reads ∧
        accepted = before ++ opening ++ outputs ++ sent ∧
        ((counted = reads ∧ sent ++ unsent = machine.finish last) ∨
          ∃ chunk final, reads = counted ++ [chunk] ∧
            machine.step last chunk = some (final, sent ++ unsent)) := by
  cases hhanded with
  | opening hreads hleast hmost => exact .inl ⟨hreads, rfl, hleast, hmost⟩
  | @all last outputs hfeed hleast hmost =>
      obtain ⟨sent, rfl⟩ := hleast
      obtain ⟨unsent, hunsent⟩ := (List.prefix_append_right_inj _).mp hmost
      exact .inr ⟨reads, last, outputs, sent, unsent, hfeed, rfl, List.prefix_rfl, rfl,
        .inl ⟨rfl, hunsent⟩⟩
  | @partly counted chunk last next outputs output hreads hfeed hstep hleast hmost hless =>
      obtain ⟨sent, rfl⟩ := hleast
      obtain ⟨unsent, rfl⟩ := (List.prefix_append_right_inj _).mp hmost
      exact .inr ⟨counted, last, outputs, sent, unsent, hfeed, rfl, ⟨[chunk], hreads.symm⟩, rfl,
        .inr ⟨chunk, next, hreads, hstep⟩⟩
  | broken hreads hfeed hstep haccepted =>
      rw [hreads, machine.feed_concat_none hfeed hstep] at hfeeds
      cases hfeeds

variable {machine loop before opening} in
/-- Nothing is counted that was not read. -/
theorem Handed.count_le {reads : List (List UInt8)} {accepted : List Output} {count : Nat}
    (hhanded : Handed machine loop before opening reads accepted count) :
    count ≤ reads.flatten.length := by
  cases hhanded with
  | opening => exact Nat.zero_le _
  | all => exact Nat.le_refl _
  | partly hreads | broken hreads =>
      rw [hreads, List.flatten_append, List.length_append]
      exact Nat.le_add_right _ _

/-- The upload task stands where its phase says. -/
def Sound (reads : List (List UInt8)) (state : State Loop Output) : Prop :=
  match state.phase with
  | .opening pending => reads = [] ∧ state.loop = loop ∧ state.counter = 0 ∧ pending ≠ [] ∧
      before <+: state.accepted ∧ state.accepted ++ pending = before ++ opening
  | .reading => ∃ outputs, machine.feed loop reads = some (state.loop, outputs) ∧
      state.accepted = before ++ opening ++ outputs ∧ state.counter = reads.flatten.length
  | .sending read pending => ∃ counted chunk last outputs output, reads = counted ++ [chunk] ∧
      machine.feed loop counted = some (last, outputs) ∧
      machine.step last chunk = some (state.loop, output) ∧ read = chunk.length ∧
      pending ≠ [] ∧ before ++ opening ++ outputs <+: state.accepted ∧
      state.accepted ++ pending = before ++ opening ++ outputs ++ output ∧
      state.counter = counted.flatten.length
  | .flushing pending => ∃ last outputs, machine.feed loop reads = some (last, outputs) ∧
      before ++ opening ++ outputs <+: state.accepted ∧ state.counter = reads.flatten.length ∧
      ((state.accepted = before ++ opening ++ outputs ∧ pending = machine.finish last) ∨
        (pending = [] ∧ state.accepted <+: before ++ opening ++ outputs ++ machine.finish last))
  | .ended => state.shared = state.counter ∧
      Handed machine loop before opening reads state.accepted state.counter

variable {machine loop before opening} {reads : List (List UInt8)} {state next : State Loop Output}

/-- A task that waits for its client has sent everything that its reads were turned into. -/
theorem Sound.reading (hsound : Sound machine loop before opening reads state)
    (hphase : state.phase = .reading) :
    ∃ outputs, machine.feed loop reads = some (state.loop, outputs) ∧
      state.accepted = before ++ opening ++ outputs := by
  unfold Sound at hsound
  simp only [hphase] at hsound
  obtain ⟨outputs, hfeed, haccepted, -⟩ := hsound
  exact ⟨outputs, hfeed, haccepted⟩

/-- Wherever the task is dropped, the accounts are in order. -/
theorem Sound.stop (hsound : Sound machine loop before opening reads state) :
    Sound machine loop before opening reads state.stop := by
  unfold Sound at hsound
  refine ⟨rfl, ?_⟩
  split at hsound
  next pending hphase =>
    obtain ⟨hreads, -, hcounter, -, hleast, hsplit⟩ := hsound
    change Handed machine loop before opening reads state.accepted state.counter
    rw [hcounter]
    exact .opening hreads hleast ⟨pending, hsplit⟩
  next hphase =>
    obtain ⟨outputs, hfeed, haccepted, hcounter⟩ := hsound
    change Handed machine loop before opening reads state.accepted state.counter
    rw [hcounter, haccepted]
    exact .all hfeed List.prefix_rfl (List.prefix_append _ _)
  next read pending hphase =>
    obtain ⟨counted, chunk, last, outputs, output, hreads, hfeed, hstep, -, hpending, hleast,
      hsplit, hcounter⟩ := hsound
    change Handed machine loop before opening reads state.accepted state.counter
    rw [hcounter]
    refine .partly hreads hfeed hstep hleast ⟨pending, hsplit⟩ ?_
    intro heq
    rw [← heq] at hsplit
    exact hpending (List.append_right_eq_self.mp hsplit)
  next pending hphase =>
    obtain ⟨last, outputs, hfeed, hleast, hcounter, hrest⟩ := hsound
    change Handed machine loop before opening reads state.accepted state.counter
    rw [hcounter]
    refine .all hfeed hleast ?_
    rcases hrest with ⟨haccepted, -⟩ | ⟨-, hmost⟩
    · rw [haccepted]
      exact List.prefix_append _ _
    · exact hmost
  next hphase => exact hsound.2

/-- The task does not depend on what the other direction does. -/
theorem Sound.congr (hsound : Sound machine loop before opening reads state)
    (hloop : next.loop = state.loop) (hphase : next.phase = state.phase)
    (haccepted : next.accepted = state.accepted) (hcounter : next.counter = state.counter)
    (hshared : next.shared = state.shared) : Sound machine loop before opening reads next := by
  unfold Sound at hsound ⊢
  rw [hloop, hphase, haccepted, hcounter, hshared]
  exact hsound

/-- After a read everything of it is sent, or some of it is waited for. -/
theorem sound_sendAll {counted : List (List UInt8)} {chunk : List UInt8} {last : Loop}
    {outputs output pending : List Output} (hreads : reads = counted ++ [chunk])
    (hfeed : machine.feed loop counted = some (last, outputs))
    (hstep : machine.step last chunk = some (state.loop, output))
    (hleast : before ++ opening ++ outputs <+: state.accepted)
    (hsplit : state.accepted ++ pending = before ++ opening ++ outputs ++ output)
    (hcounter : state.counter = counted.flatten.length) :
    Sound machine loop before opening reads (state.sendAll chunk.length pending) := by
  cases pending with
  | nil =>
      refine ⟨outputs ++ output, ?_, ?_, ?_⟩
      · rw [hreads]
        exact machine.feed_concat hfeed hstep
      · rw [← List.append_assoc, ← hsplit, List.append_nil]
        rfl
      · change state.counter + chunk.length = _
        rw [hcounter, hreads, List.flatten_append, List.length_append, List.flatten_singleton]
  | cons first rest =>
      exact ⟨counted, chunk, last, outputs, output, hreads, hfeed, hstep, rfl,
        List.cons_ne_nil _ _, hleast, hsplit, hcounter⟩

theorem sound_opened {pending : List Output} (hreads : reads = []) (hloop : state.loop = loop)
    (hcounter : state.counter = 0) (hleast : before <+: state.accepted)
    (hsplit : state.accepted ++ pending = before ++ opening) :
    Sound machine loop before opening reads (state.opened pending) := by
  cases pending with
  | nil =>
      rw [List.append_nil] at hsplit
      refine ⟨[], ?_, ?_, ?_⟩
      · rw [hreads, ← hloop]
        rfl
      · rw [List.append_nil]
        exact hsplit
      · rw [hreads]
        exact hcounter
  | cons first rest =>
      exact ⟨hreads, hloop, hcounter, List.cons_ne_nil _ _, hleast, hsplit⟩

/-- The flush has at most one output, so a failure there leaves a beginning as well. -/
theorem finish_cons {last : Loop} (hfinish : ∀ state, (machine.finish state).length ≤ 1)
    {output : Output} {pending : List Output} (hpending : output :: pending = machine.finish last) :
    pending = [] := by
  have hlength := congrArg List.length hpending
  have hle := hfinish last
  rw [List.length_cons] at hlength
  exact List.length_eq_zero_iff.mp (by omega)

theorem Sound.onSent (hfinish : ∀ state, (machine.finish state).length ≤ 1)
    (hsound : Sound machine loop before opening reads state)
    (hstep : state.onSent = some next) : Sound machine loop before opening reads next := by
  unfold State.onSent at hstep
  unfold Sound at hsound
  split at hstep
  next output pending hphase =>
    cases hstep
    simp only [hphase] at hsound
    obtain ⟨hreads, hloop, hcounter, -, hleast, hsplit⟩ := hsound
    refine sound_opened hreads hloop hcounter (hleast.trans (List.prefix_append _ _)) ?_
    rw [← hsplit, List.append_assoc]
    rfl
  next read output pending hphase =>
    cases hstep
    simp only [hphase] at hsound
    obtain ⟨counted, chunk, last, outputs, result, hreads, hfeed, hturn, rfl, -, hleast, hsplit,
      hcounter⟩ := hsound
    refine sound_sendAll hreads hfeed hturn (hleast.trans (List.prefix_append _ _)) ?_ hcounter
    rw [← hsplit, List.append_assoc]
    rfl
  next output pending hphase =>
    cases hstep
    simp only [hphase] at hsound
    obtain ⟨last, outputs, hfeed, hleast, hcounter, ⟨haccepted, hpending⟩ | ⟨hnil, -⟩⟩ := hsound
    · refine ⟨last, outputs, hfeed, hleast.trans (List.prefix_append _ _), hcounter,
        .inr ⟨finish_cons hfinish hpending, ?_⟩⟩
      rw [← hpending, finish_cons hfinish hpending]
      refine ⟨[], ?_⟩
      change state.accepted ++ [output] ++ [] = _
      rw [List.append_nil, haccepted]
    · cases hnil
  next => cases hstep

theorem Sound.onSendFailed (hfinish : ∀ state, (machine.finish state).length ≤ 1)
    (hsound : Sound machine loop before opening reads state)
    (hstep : state.onSendFailed = some next) : Sound machine loop before opening reads next := by
  have hstop := hsound.stop
  unfold State.onSendFailed at hstep
  split at hstep
  next hphase =>
    cases hstep
    exact hstop
  next hphase =>
    cases hstep
    exact hstop
  next output pending hphase =>
    cases hstep
    unfold Sound at hsound
    simp only [hphase] at hsound
    obtain ⟨last, outputs, hfeed, hleast, hcounter, ⟨haccepted, hpending⟩ | ⟨hnil, -⟩⟩ := hsound
    · refine ⟨last, outputs, hfeed, hleast, hcounter, .inr ⟨finish_cons hfinish hpending, ?_⟩⟩
      change state.accepted <+: _
      rw [haccepted]
      exact List.prefix_append _ _
    · cases hnil
  next => cases hstep

theorem Sound.onChunk {bytes : List UInt8}
    (hsound : Sound machine loop before opening reads state)
    (hstep : state.onChunk machine bytes = some next) :
    Sound machine loop before opening (reads ++ [bytes]) next := by
  unfold State.onChunk at hstep
  unfold Sound at hsound
  split at hstep
  next first rest hphase =>
    simp only [hphase] at hsound
    obtain ⟨outputs, hfeed, haccepted, hcounter⟩ := hsound
    split at hstep
    next hbroken =>
      cases hstep
      refine ⟨rfl, ?_⟩
      change Handed machine loop before opening _ state.accepted state.counter
      rw [hcounter]
      exact .broken rfl hfeed hbroken haccepted
    next after output hturn =>
      cases hstep
      refine sound_sendAll rfl hfeed hturn (haccepted ▸ List.prefix_rfl) ?_ hcounter
      change state.accepted ++ output = _
      rw [haccepted]
  next => cases hstep

theorem Sound.onEof (hsound : Sound machine loop before opening reads state)
    (hstep : state.onEof machine = some next) : Sound machine loop before opening reads next := by
  unfold State.onEof at hstep
  unfold Sound at hsound
  split at hstep
  next hphase =>
    cases hstep
    simp only [hphase] at hsound
    obtain ⟨outputs, hfeed, haccepted, hcounter⟩ := hsound
    exact ⟨state.loop, outputs, hfeed, haccepted ▸ List.prefix_rfl, hcounter,
      .inl ⟨haccepted, rfl⟩⟩
  next => cases hstep

theorem onFinished_eq_stop (hstep : state.onFinished = some next) : next = state.stop := by
  unfold State.onFinished at hstep
  split at hstep
  · exact (Option.some.inj hstep).symm
  · cases hstep

theorem onCancelled_eq_stop (hstep : state.onCancelled = some next) :
    next = state.stop ∧ state.main = .aborting := by
  unfold State.onCancelled at hstep
  split at hstep
  · exact ⟨(Option.some.inj hstep).symm, by assumption⟩
  · exact ⟨(Option.some.inj hstep).symm, by assumption⟩
  · exact ⟨(Option.some.inj hstep).symm, by assumption⟩
  · exact ⟨(Option.some.inj hstep).symm, by assumption⟩
  · cases hstep

theorem onDownload_eq_some {target : State Loop Output}
    (hstep : state.onDownload target = some next) :
    next = target ∧ state.main = .joining ∧ state.downloading = true := by
  unfold State.onDownload at hstep
  split at hstep
  next hmain hdownloading => exact ⟨(Option.some.inj hstep).symm, hmain, hdownloading⟩
  next => cases hstep

theorem onJoinUpload_eq_some (hstep : state.onJoinUpload = some next) :
    next = { state with main := .closed .client state.shared state.bytesDown } ∧
      state.main = .joining ∧ state.phase = .ended := by
  unfold State.onJoinUpload at hstep
  split at hstep
  next hmain hphase => exact ⟨(Option.some.inj hstep).symm, hmain, hphase⟩
  next => cases hstep

theorem onJoinDownload_eq_some (hstep : state.onJoinDownload = some next) :
    next = { state with main := .aborting } ∧ state.main = .joining ∧
      state.downloading = false := by
  unfold State.onJoinDownload at hstep
  split at hstep
  next hmain hdownloading => exact ⟨(Option.some.inj hstep).symm, hmain, hdownloading⟩
  next => cases hstep

theorem onJoinAborted_eq_some (hstep : state.onJoinAborted = some next) :
    next = { state with main := .closed .upstream state.shared state.bytesDown } ∧
      state.main = .aborting ∧ state.phase = .ended := by
  unfold State.onJoinAborted at hstep
  split at hstep
  next hmain hphase => exact ⟨(Option.some.inj hstep).symm, hmain, hphase⟩
  next => cases hstep

/-- One step of either task. -/
theorem Sound.step (hfinish : ∀ state, (machine.finish state).length ≤ 1) {label : Label}
    (hsound : Sound machine loop before opening reads state)
    (hstep : Session.step machine state label = some next) :
    Sound machine loop before opening (reads ++ chunks [label]) next := by
  cases label with
  | chunk bytes => exact hsound.onChunk hstep
  | sent => exact (List.append_nil reads).symm ▸ hsound.onSent hfinish hstep
  | sendFailed => exact (List.append_nil reads).symm ▸ hsound.onSendFailed hfinish hstep
  | eof => exact (List.append_nil reads).symm ▸ hsound.onEof hstep
  | finished =>
      obtain rfl := onFinished_eq_stop hstep
      exact (List.append_nil reads).symm ▸ hsound.stop
  | cancelled =>
      obtain ⟨rfl, -⟩ := onCancelled_eq_stop hstep
      exact (List.append_nil reads).symm ▸ hsound.stop
  | downloaded bytes =>
      obtain ⟨rfl, -⟩ := onDownload_eq_some hstep
      exact (List.append_nil reads).symm ▸ hsound.congr rfl rfl rfl rfl rfl
  | downloadEnded =>
      obtain ⟨rfl, -⟩ := onDownload_eq_some hstep
      exact (List.append_nil reads).symm ▸ hsound.congr rfl rfl rfl rfl rfl
  | joinUpload =>
      obtain ⟨rfl, -⟩ := onJoinUpload_eq_some hstep
      exact (List.append_nil reads).symm ▸ hsound.congr rfl rfl rfl rfl rfl
  | joinDownload =>
      obtain ⟨rfl, -⟩ := onJoinDownload_eq_some hstep
      exact (List.append_nil reads).symm ▸ hsound.congr rfl rfl rfl rfl rfl
  | joinAborted =>
      obtain ⟨rfl, -⟩ := onJoinAborted_eq_some hstep
      exact (List.append_nil reads).symm ▸ hsound.congr rfl rfl rfl rfl rfl

/-! ## The two tasks -/

/-- The steps of the upload task. -/
def Label.uploading : Label → Bool
  | .sent | .sendFailed | .chunk _ | .eof | .finished | .cancelled => true
  | _ => false

/-- The upload task runs on its own until it has ended. -/
structure Apart (state next : State Loop Output) : Prop where
  running : state.phase ≠ .ended
  main : next.main = state.main
  downloading : next.downloading = state.downloading
  bytesDown : next.bytesDown = state.bytesDown

theorem apart_opened {accepted : List Output} {pending : List Output}
    (hrunning : state.phase ≠ .ended) :
    Apart state (State.opened { state with accepted } pending) := by
  cases pending <;> exact ⟨hrunning, rfl, rfl, rfl⟩

theorem apart_sendAll {accepted : List Output} {last : Loop} {read : Nat} {pending : List Output}
    (hrunning : state.phase ≠ .ended) :
    Apart state (State.sendAll { state with accepted, loop := last } read pending) := by
  cases pending <;> exact ⟨hrunning, rfl, rfl, rfl⟩

theorem step_uploading {label : Label} (hlabel : label.uploading = true)
    (hstep : Session.step machine state label = some next) : Apart state next := by
  have hrunning : state.phase ≠ .ended := by
    intro hphase
    cases label <;>
      simp [Session.step, State.onSent, State.onSendFailed, State.onChunk, State.onEof,
        State.onFinished, State.onCancelled, Label.uploading, hphase] at hstep hlabel
  cases label with
  | sent =>
      simp only [Session.step, State.onSent] at hstep
      split at hstep <;> cases hstep
      · exact apart_opened hrunning
      · exact apart_sendAll hrunning
      · exact ⟨hrunning, rfl, rfl, rfl⟩
  | sendFailed =>
      simp only [Session.step, State.onSendFailed] at hstep
      split at hstep <;> cases hstep <;> exact ⟨hrunning, rfl, rfl, rfl⟩
  | chunk bytes =>
      simp only [Session.step, State.onChunk] at hstep
      split at hstep
      · split at hstep <;> cases hstep
        · exact ⟨hrunning, rfl, rfl, rfl⟩
        · exact apart_sendAll hrunning
      · cases hstep
  | eof =>
      simp only [Session.step, State.onEof] at hstep
      split at hstep <;> cases hstep
      exact ⟨hrunning, rfl, rfl, rfl⟩
  | finished =>
      obtain rfl := onFinished_eq_stop hstep
      exact ⟨hrunning, rfl, rfl, rfl⟩
  | cancelled =>
      obtain ⟨rfl, -⟩ := onCancelled_eq_stop hstep
      exact ⟨hrunning, rfl, rfl, rfl⟩
  | downloaded | downloadEnded | joinUpload | joinDownload | joinAborted => cases hlabel

/-- What the task of the client knows of the run. -/
structure Joined (labels : List Label) (state : State Loop Output) : Prop where
  aborting : state.main = .aborting → state.downloading = false
  closed : ∀ closedBy up down, state.main = .closed closedBy up down → state.phase = .ended ∧
    up = state.shared ∧ down = state.bytesDown ∧ (closedBy = .upstream → state.downloading = false)
  downloading : state.downloading = false → .downloadEnded ∈ labels
  cancelled : .cancelled ∈ labels → state.main ≠ .joining ∧
    ∀ up down, state.main ≠ .closed .client up down
  bytesDown : state.bytesDown = downloaded labels

theorem downloaded_append (first second : List Label) :
    downloaded (first ++ second) = downloaded first + downloaded second := by
  induction first with
  | nil => exact (Nat.zero_add _).symm
  | cons label labels ih =>
      cases label with
      | downloaded bytes => simp only [List.cons_append, downloaded, ih, Nat.add_assoc]
      | _ => exact ih

variable {labels : List Label}

theorem Joined.uploading {label : Label} (hjoined : Joined labels state)
    (hlabel : label.uploading = true) (hstep : Session.step machine state label = some next) :
    Joined (labels ++ [label]) next := by
  obtain ⟨hrunning, hmain, hdownloading, hbytes⟩ := step_uploading hlabel hstep
  have hopen : ∀ closedBy up down, state.main ≠ .closed closedBy up down :=
    fun closedBy up down heq => hrunning (hjoined.closed closedBy up down heq).1
  refine ⟨?_, ?_, ?_, ?_, ?_⟩
  · rw [hmain, hdownloading]
    exact hjoined.aborting
  · intro closedBy up down heq
    rw [hmain] at heq
    exact absurd heq (hopen closedBy up down)
  · intro hended
    rw [hdownloading] at hended
    exact List.mem_append_left _ (hjoined.downloading hended)
  · intro hmem
    rw [hmain]
    rcases List.mem_append.mp hmem with hbefore | hlast
    · exact hjoined.cancelled hbefore
    · -- Only an upload that was aborted is cancelled.
      obtain rfl := List.mem_singleton.mp hlast
      obtain ⟨-, haborting⟩ := onCancelled_eq_stop hstep
      rw [haborting]
      exact ⟨nofun, nofun⟩
  · rw [hbytes, hjoined.bytesDown, downloaded_append]
    cases label with
    | downloaded bytes => cases hlabel
    | _ => rfl

theorem mem_of_mem_concat {label other : Label} (hmem : label ∈ labels ++ [other])
    (hne : label ≠ other) : label ∈ labels := by
  rcases List.mem_append.mp hmem with hbefore | hlast
  · exact hbefore
  · exact absurd (List.mem_singleton.mp hlast) hne

theorem Joined.step {label : Label} (hjoined : Joined labels state)
    (hstep : Session.step machine state label = some next) : Joined (labels ++ [label]) next := by
  cases label with
  | sent | sendFailed | chunk | eof | finished | cancelled => exact hjoined.uploading rfl hstep
  | downloaded bytes =>
      obtain ⟨rfl, hmain, hdownloading⟩ := onDownload_eq_some hstep
      refine ⟨?_, ?_, ?_, ?_, ?_⟩
      · exact hjoined.aborting
      · intro closedBy up down heq
        exact nomatch hmain.symm.trans heq
      · intro hended
        exact nomatch hdownloading.symm.trans hended
      · intro hmem
        exact hjoined.cancelled (mem_of_mem_concat hmem nofun)
      · rw [downloaded_append, ← hjoined.bytesDown]
        rfl
  | downloadEnded =>
      obtain ⟨rfl, hmain, -⟩ := onDownload_eq_some hstep
      refine ⟨fun _ => rfl, ?_, fun _ => by simp, ?_, ?_⟩
      · intro closedBy up down heq
        exact nomatch hmain.symm.trans heq
      · intro hmem
        exact hjoined.cancelled (mem_of_mem_concat hmem nofun)
      · rw [downloaded_append, ← hjoined.bytesDown]
        rfl
  | joinUpload =>
      obtain ⟨rfl, hmain, hphase⟩ := onJoinUpload_eq_some hstep
      refine ⟨nofun, ?_, ?_, ?_, ?_⟩
      · rintro _ _ _ ⟨⟩
        exact ⟨hphase, rfl, rfl, nofun⟩
      · intro hended
        exact List.mem_append_left _ (hjoined.downloading hended)
      · intro hmem
        exact absurd hmain (hjoined.cancelled (mem_of_mem_concat hmem nofun)).1
      · rw [downloaded_append, ← hjoined.bytesDown]
        rfl
  | joinDownload =>
      obtain ⟨rfl, hmain, hdownloading⟩ := onJoinDownload_eq_some hstep
      refine ⟨fun _ => hdownloading, nofun, ?_, fun _ => ⟨nofun, nofun⟩, ?_⟩
      · intro hended
        exact List.mem_append_left _ (hjoined.downloading hended)
      · rw [downloaded_append, ← hjoined.bytesDown]
        rfl
  | joinAborted =>
      obtain ⟨rfl, hmain, hphase⟩ := onJoinAborted_eq_some hstep
      refine ⟨nofun, ?_, ?_, fun _ => ⟨nofun, nofun⟩, ?_⟩
      · rintro _ _ _ ⟨⟩
        exact ⟨hphase, rfl, rfl, fun _ => hjoined.aborting hmain⟩
      · intro hended
        exact List.mem_append_left _ (hjoined.downloading hended)
      · rw [downloaded_append, ← hjoined.bytesDown]
        rfl

/-! ## Sessions without a failed write -/

variable (machine loop before opening) in
/-- Everything that was read is handed over, with what the end brought out. -/
def Whole (reads : List (List UInt8)) (accepted : List Output) : Prop :=
  ∃ last outputs, machine.feed loop reads = some (last, outputs) ∧
    accepted = before ++ opening ++ outputs ++ machine.finish last

variable (machine loop before opening) in
/-- As long as no write failed, the end of the stream leaves nothing behind. -/
def Clean (labels : List Label) (state : State Loop Output) : Prop :=
  .sendFailed ∉ labels →
    match state.phase with
    | .flushing pending =>
        Whole machine loop before opening (chunks labels) (state.accepted ++ pending)
    | .ended => .cancelled ∉ labels → machine.feed loop (chunks labels) = none ∨
        Whole machine loop before opening (chunks labels) state.accepted
    | _ => True

theorem chunks_append (first second : List Label) :
    chunks (first ++ second) = chunks first ++ chunks second := List.filterMap_append

theorem Clean.congr {label : Label} (hclean : Clean machine loop before opening labels state)
    (hphase : next.phase = state.phase) (haccepted : next.accepted = state.accepted)
    (hchunks : chunks [label] = []) :
    Clean machine loop before opening (labels ++ [label]) next := by
  intro hsent
  have hbefore := hclean fun hmem => hsent (List.mem_append_left _ hmem)
  rw [hphase, haccepted, chunks_append, hchunks, List.append_nil]
  cases hstate : state.phase with
  | ended =>
      rw [hstate] at hbefore
      exact fun hcancelled => hbefore fun hmem => hcancelled (List.mem_append_left _ hmem)
  | _ =>
      rw [hstate] at hbefore
      exact hbefore

theorem Clean.step {label : Label}
    (hsound : Sound machine loop before opening (chunks labels) state)
    (hclean : Clean machine loop before opening labels state)
    (hstep : Session.step machine state label = some next) :
    Clean machine loop before opening (labels ++ [label]) next := by
  cases label with
  | sent =>
      intro hsent
      have hbefore := hclean fun hmem => hsent (List.mem_append_left _ hmem)
      rw [chunks_append, show chunks [.sent] = [] from rfl, List.append_nil]
      simp only [Session.step, State.onSent] at hstep
      split at hstep
      next output pending hphase =>
        cases hstep
        cases pending <;> trivial
      next read output pending hphase =>
        cases hstep
        cases pending <;> trivial
      next output pending hphase =>
        cases hstep
        simp only [hphase] at hbefore
        change Whole machine loop before opening _ (state.accepted ++ [output] ++ pending)
        rw [List.append_assoc]
        exact hbefore
      next => cases hstep
  | sendFailed => exact fun hsent => absurd (by simp) hsent
  | chunk bytes =>
      intro hsent
      simp only [Session.step, State.onChunk] at hstep
      unfold Sound at hsound
      split at hstep
      next first rest hphase =>
        simp only [hphase] at hsound
        obtain ⟨outputs, hfeed, -⟩ := hsound
        split at hstep
        next hbroken =>
          cases hstep
          intro hcancelled
          left
          rw [chunks_append]
          exact machine.feed_concat_none hfeed hbroken
        next after output hturn =>
          cases hstep
          cases output <;> trivial
      next => cases hstep
  | eof =>
      intro hsent
      rw [chunks_append, show chunks [.eof] = [] from rfl, List.append_nil]
      simp only [Session.step, State.onEof] at hstep
      unfold Sound at hsound
      split at hstep
      next hphase =>
        cases hstep
        simp only [hphase] at hsound
        obtain ⟨outputs, hfeed, haccepted, -⟩ := hsound
        exact ⟨state.loop, outputs, hfeed, by rw [haccepted]⟩
      next => cases hstep
  | finished =>
      intro hsent
      have hbefore := hclean fun hmem => hsent (List.mem_append_left _ hmem)
      rw [chunks_append, show chunks [.finished] = [] from rfl, List.append_nil]
      simp only [Session.step, State.onFinished] at hstep
      split at hstep
      next hphase =>
        cases hstep
        simp only [hphase, List.append_nil] at hbefore
        exact fun _ => .inr hbefore
      next => cases hstep
  | cancelled =>
      intro hsent
      obtain ⟨rfl, -⟩ := onCancelled_eq_stop hstep
      exact fun hcancelled => absurd (by simp) hcancelled
  | downloaded bytes =>
      obtain ⟨rfl, -⟩ := onDownload_eq_some hstep
      exact hclean.congr rfl rfl rfl
  | downloadEnded =>
      obtain ⟨rfl, -⟩ := onDownload_eq_some hstep
      exact hclean.congr rfl rfl rfl
  | joinUpload =>
      obtain ⟨rfl, -⟩ := onJoinUpload_eq_some hstep
      exact hclean.congr rfl rfl rfl
  | joinDownload =>
      obtain ⟨rfl, -⟩ := onJoinDownload_eq_some hstep
      exact hclean.congr rfl rfl rfl
  | joinAborted =>
      obtain ⟨rfl, -⟩ := onJoinAborted_eq_some hstep
      exact hclean.congr rfl rfl rfl

/-! ## Whole runs -/

theorem run_invariants (hfinish : ∀ state, (machine.finish state).length ≤ 1)
    (hrun : (sessionSystem machine loop before opening).run labels = some state) :
    Sound machine loop before opening (chunks labels) state ∧ Joined labels state ∧
      Clean machine loop before opening labels state := by
  refine System.run_induct _ (fun labels state => Sound machine loop before opening (chunks labels)
    state ∧ Joined labels state ∧ Clean machine loop before opening labels state) ?_ ?_ hrun
  · refine ⟨sound_opened rfl rfl rfl List.prefix_rfl rfl, ?_, ?_⟩
    · cases opening <;> exact ⟨nofun, nofun, nofun, nofun, rfl⟩
    · intro _
      cases opening <;> trivial
  · intro before state label next _ _ hstep ⟨hsound, hjoined, hclean⟩
    refine ⟨?_, hjoined.step hstep, Clean.step hsound hclean hstep⟩
    rw [chunks_append]
    exact hsound.step hfinish hstep

/-- The logged count is that of the task. -/
theorem closed_counter {closedBy : ClosedBy} {up down : Nat}
    (hsound : Sound machine loop before opening (chunks labels) state)
    (hjoined : Joined labels state) (hclosed : state.main = .closed closedBy up down) :
    up = state.counter := by
  obtain ⟨hphase, rfl, -⟩ := hjoined.closed closedBy up down hclosed
  unfold Sound at hsound
  simp only [hphase] at hsound
  exact hsound.1

/-- A closed session stands still. -/
theorem step_closed {closedBy : ClosedBy} {up down : Nat} (hjoined : Joined labels state)
    (hclosed : state.main = .closed closedBy up down) (label : Label) :
    Session.step machine state label = none := by
  obtain ⟨hphase, -⟩ := hjoined.closed closedBy up down hclosed
  cases label <;>
    simp [Session.step, State.onSent, State.onSendFailed, State.onChunk, State.onEof,
      State.onFinished, State.onCancelled, State.onDownload, State.onJoinUpload,
      State.onJoinDownload, State.onJoinAborted, hphase, hclosed]

theorem handed_of_closed (hfinish : ∀ state, (machine.finish state).length ≤ 1)
    {closedBy : ClosedBy} {up down : Nat}
    (hrun : (sessionSystem machine loop before opening).run labels = some state)
    (hclosed : state.main = .closed closedBy up down) :
    Handed machine loop before opening (chunks labels) state.accepted up := by
  obtain ⟨hsound, hjoined, -⟩ := run_invariants hfinish hrun
  obtain ⟨hphase, rfl, -⟩ := hjoined.closed closedBy up down hclosed
  unfold Sound at hsound
  simp only [hphase] at hsound
  exact hsound.1 ▸ hsound.2

/-- Where the client ended the session and no write failed, nothing is left behind. -/
theorem whole_of_closed (hfinish : ∀ state, (machine.finish state).length ≤ 1) {up down : Nat}
    (hrun : (sessionSystem machine loop before opening).run labels = some state)
    (hclosed : state.main = .closed .client up down) (hsent : .sendFailed ∉ labels) :
    machine.feed loop (chunks labels) = none ∨
      Whole machine loop before opening (chunks labels) state.accepted := by
  obtain ⟨-, hjoined, hclean⟩ := run_invariants hfinish hrun
  obtain ⟨hphase, -⟩ := hjoined.closed .client up down hclosed
  unfold Clean at hclean
  simp only [hphase] at hclean
  refine hclean hsent fun hcancelled => ?_
  exact (hjoined.cancelled hcancelled).2 _ _ hclosed

/-- The accounts of a closed session, whatever both directions did before. The peer has the
beginning of what the upload makes of its reads; the count of uploaded bytes is that of the
reads that were handed over in full, and everything was handed over in a session that the
client ended without a failed write. The count of downloaded bytes is exact, a session that
upstream closed has seen the end of its download, and nothing happens any more. -/
theorem session_accounts (hfinish : ∀ state, (machine.finish state).length ≤ 1)
    {closedBy : ClosedBy} {up down : Nat}
    (hrun : (sessionSystem machine loop before opening).run labels = some state)
    (hclosed : state.main = .closed closedBy up down) :
    Handed machine loop before opening (chunks labels) state.accepted up ∧
      down = downloaded labels ∧
      (closedBy = .upstream → .downloadEnded ∈ labels) ∧
      (closedBy = .client → .sendFailed ∉ labels →
        machine.feed loop (chunks labels) = none ∨
          Whole machine loop before opening (chunks labels) state.accepted) ∧
      ∀ label, Session.step machine state label = none := by
  obtain ⟨-, hjoined, -⟩ := run_invariants hfinish hrun
  obtain ⟨-, -, hdown, hdownloading⟩ := hjoined.closed closedBy up down hclosed
  refine ⟨handed_of_closed hfinish hrun hclosed, hdown.trans hjoined.bytesDown, ?_, ?_,
    step_closed hjoined hclosed⟩
  · intro hupstream
    exact hjoined.downloading (hdownloading hupstream)
  · rintro rfl hsent
    exact whole_of_closed hfinish hrun hclosed hsent

/-! ## Closing -/

/-- The steps that neither peer has a part in. -/
def Label.own : Label → Bool
  | .cancelled | .joinUpload | .joinDownload | .joinAborted => true
  | _ => false

theorem exists_aborted (haborting : state.main = .aborting) :
    ∃ steps final up down, steps.length ≤ 2 ∧ (∀ label ∈ steps, label.own = true) ∧
      (sessionSystem machine loop before opening).runFrom state steps = some final ∧
      final.main = .closed .upstream up down := by
  by_cases hphase : state.phase = .ended
  · refine ⟨[.joinAborted], { state with main := .closed .upstream state.shared state.bytesDown },
      _, _, by simp, by simp [Label.own], ?_, rfl⟩
    simp [System.runFrom, sessionSystem, Session.step, State.onJoinAborted, haborting, hphase]
  · have hcancel : state.onCancelled = some state.stop := by
      unfold State.onCancelled
      rw [haborting]
      cases hwhere : state.phase with
      | ended => exact absurd hwhere hphase
      | _ => rfl
    refine ⟨[.cancelled, .joinAborted],
      { state.stop with main := .closed .upstream state.counter state.bytesDown },
      _, _, by simp, by simp [Label.own], ?_, rfl⟩
    simp [System.runFrom, sessionSystem, Session.step, State.onJoinAborted, hcancel, haborting,
      State.stop]

/-- Once either direction has ended, the session can be closed without either peer: with
three steps at most, whatever the other direction is waiting for. -/
theorem session_closes
    (hrun : (sessionSystem machine loop before opening).run labels = some state)
    (hended : state.phase = .ended ∨ state.downloading = false) :
    ∃ steps final closedBy up down, steps.length ≤ 3 ∧ (∀ label ∈ steps, label.own = true) ∧
      (sessionSystem machine loop before opening).run (labels ++ steps) = some final ∧
      final.main = .closed closedBy up down := by
  suffices hclose : ∃ steps final closedBy up down, steps.length ≤ 3 ∧
      (∀ label ∈ steps, label.own = true) ∧
      (sessionSystem machine loop before opening).runFrom state steps = some final ∧
      final.main = .closed closedBy up down by
    obtain ⟨steps, final, closedBy, up, down, hlength, hown, hfrom, hfinal⟩ := hclose
    refine ⟨steps, final, closedBy, up, down, hlength, hown, ?_, hfinal⟩
    unfold System.run at hrun ⊢
    rw [System.runFrom_append, hrun]
    exact hfrom
  cases hmain : state.main with
  | closed closedBy up down => exact ⟨[], state, _, _, _, by simp, nofun, rfl, hmain⟩
  | aborting =>
      obtain ⟨steps, final, up, down, hlength, hown, hfrom, hfinal⟩ :=
        @exists_aborted _ _ machine loop before opening state hmain
      exact ⟨steps, final, _, up, down, Nat.le_succ_of_le hlength, hown, hfrom, hfinal⟩
  | joining =>
      by_cases hphase : state.phase = .ended
      · refine ⟨[.joinUpload], { state with main := .closed .client state.shared state.bytesDown },
          _, _, _, by simp, by simp [Label.own], ?_, rfl⟩
        simp [System.runFrom, sessionSystem, Session.step, State.onJoinUpload, hmain, hphase]
      · have hdownloading := hended.resolve_left hphase
        obtain ⟨steps, final, up, down, hlength, hown, hfrom, hfinal⟩ :=
          @exists_aborted _ _ machine loop before opening { state with main := .aborting } rfl
        refine ⟨.joinDownload :: steps, final, _, up, down, Nat.succ_le_succ hlength,
          List.forall_mem_cons.mpr ⟨rfl, hown⟩, ?_, hfinal⟩
        simp only [System.runFrom]
        have hjoin : (sessionSystem machine loop before opening).step state .joinDownload =
            some { state with main := .aborting } := by
          simp [sessionSystem, Session.step, State.onJoinDownload, hmain, hdownloading]
        rw [hjoin]
        exact hfrom

end Accounts

/-- Two bytes are read and sent, and the client goes away. -/
theorem session_accounts_two_bytes :
    let machine : Transducer Unit (List UInt8) UInt8 :=
      ⟨fun _ chunk => some ((), chunk), fun _ => []⟩
    let labels : List Label :=
      [.chunk [1, 2], .sent, .downloaded 3, .sent, .eof, .finished, .joinUpload]
    ∃ state, (sessionSystem machine () [] []).run labels = some state ∧
      state.main = .closed .client 2 3 ∧
      Handed machine () [] [] (chunks labels) state.accepted 2 ∧ 3 = downloaded labels ∧
      Whole machine () [] [] [[1, 2]] state.accepted := by
  intro machine labels
  have hfinish : ∀ state, (machine.finish state).length ≤ 1 := fun _ => Nat.zero_le 1
  have hrun : (sessionSystem machine () [] []).run labels = some _ := rfl
  obtain ⟨hhanded, hdown, -, hwhole, -⟩ := session_accounts hfinish hrun rfl
  exact ⟨_, hrun, rfl, hhanded, hdown, (hwhole rfl (by decide)).resolve_left nofun⟩

/-- An upload that waits for its client is cancelled when upstream hangs up. -/
theorem session_closes_upstream :
    ∃ steps final closedBy up down, steps.length ≤ 3 ∧ (∀ label ∈ steps, label.own = true) ∧
      (sessionSystem (⟨fun _ chunk => some ((), chunk), fun _ => []⟩ :
          Transducer Unit (List UInt8) UInt8) () [] []).run
        ([.chunk [1], .sent, .downloaded 3, .downloadEnded] ++ steps) = some final ∧
      final.main = .closed closedBy up down :=
  session_closes rfl (.inr rfl)

end TgWsProxy.Session
