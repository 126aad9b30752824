/-
# MediaArchiver.Client.Output -- what the client hears of the programs it starts

The probe is waited for: `waitForFinish` clears its buffer, reads, and goes on until the pipe has ended. It
hears what was printed if there is no zero in it (`waitForFinish_eq_iff`).

The encoder is looked at once in each poll, and the buffer is not cleared. If the last look finds nothing,
the error text of a failed encoding ends with what happens to be in the buffer (`conversion_failed`). That is
so if the last line is finished, or fills the buffer a number of times.
-/
import MediaArchiver.Client.Verdict
import MediaArchiver.Lib.Stdio

namespace MediaArchiver

open Lib (Machine Pipe nul cText)
open Process (Undisturbed)

universe u

/-! ## The probe -/

/-- The size of the buffer in `waitForFinish`. -/
def finishBufferSize : Nat := 4096

theorem one_lt_finishBufferSize : 1 < finishBufferSize := by decide

/-- `waitForFinish`: what it returns of what was printed. -/
def waitForFinish (printed : Text) : Text :=
  (Pipe.opened printed).heard finishBufferSize one_lt_finishBufferSize

/-- The client hears what was printed exactly if there is no zero in it. -/
theorem waitForFinish_eq_iff (printed : Text) : waitForFinish printed = printed ↔ nul ∉ printed :=
  Pipe.heard_eq_iff one_lt_finishBufferSize printed

/-! ## The encoder -/

/-- The size of the buffer in `doConvert`. -/
def lineBufferSize : Nat := 1024

theorem one_lt_lineBufferSize : 1 < lineBufferSize := by decide

/-- The looks of the polls into a pipe: if `fgets` finds something, that is in the buffer. -/
def Finds : Pipe → List EncoderAnswers → Prop
  | _, [] => True
  | s, a :: as =>
      (∀ got, (s.fgets lineBufferSize).2 = some got → a.buffer = cText got) ∧
        a.eof = (s.fgets lineBufferSize).1.eof ∧ Finds (s.fgets lineBufferSize).1 as

/-- The looks until one meets the end. -/
theorem Finds.drains {s : Pipe} {as : List EncoderAnswers} {a : EncoderAnswers} (h : Finds s (as ++ [a]))
    (hgoing : s.eof = false) (hrunning : ∀ b ∈ as, b.eof = false) (hended : a.eof = true) :
    ∃ gots last, s.Drains lineBufferSize gots last ∧ as.map EncoderAnswers.buffer = gots.map cText ∧
      (last ≠ [] → a.buffer = cText last) := by
  induction as generalizing s with
  | nil =>
    obtain ⟨hbuffer, heof, -⟩ := h
    refine ⟨[], _, .last (heof.symm.trans hended), rfl, fun hne => ?_⟩
    cases hgot : (s.fgets lineBufferSize).2 with
    | none =>
      rw [hgot] at hne
      exact absurd rfl hne
    | some got => exact hbuffer got hgot
  | cons b as ih =>
    obtain ⟨hbuffer, heof, hrest⟩ := h
    have hgoing' : (s.fgets lineBufferSize).1.eof = false := heof.symm.trans (hrunning b List.mem_cons_self)
    obtain ⟨gots, last, hdrains, hbuffers, hlast⟩ :=
      ih hrest hgoing' fun c hc => hrunning c (List.mem_cons_of_mem b hc)
    refine ⟨_, last, .more hgoing' hdrains, ?_, hlast⟩
    rw [List.map_cons, List.map_cons, hbuffers]
    rcases Pipe.fgets_cases one_lt_lineBufferSize s with ⟨got, heq, -⟩ | ⟨heq, -⟩
    · have hsome : (s.fgets lineBufferSize).2 = some got := by rw [heq]
      rw [hbuffer got hsome, hsome]
      rfl
    · rw [heq] at hgoing'
      cases hgoing'

/-- Without zeros, what the buffers held is what was printed, and what was in the last one if nothing was
found for it. -/
theorem Finds.flatten {printed : Text} {as : List EncoderAnswers} {a : EncoderAnswers}
    (h : Finds (.opened printed) (as ++ [a])) (hnul : nul ∉ printed) (hrunning : ∀ b ∈ as, b.eof = false)
    (hended : a.eof = true) :
    (as.map EncoderAnswers.buffer).flatten ++ a.buffer
      = printed ++ if lineBufferSize - 1 ∣ (Pipe.unfinished printed).length then a.buffer else [] := by
  obtain ⟨gots, last, hdrains, hbuffers, hlast⟩ := h.drains rfl hrunning hended
  have hprinted : gots.flatten ++ last = printed := hdrains.flatten_append one_lt_lineBufferSize rfl
  have hnil : last = [] ↔ _ := hdrains.last_eq_nil_iff one_lt_lineBufferSize rfl
  have hclear : nul ∉ gots.flatten ∧ nul ∉ last := by
    rw [← hprinted, List.mem_append, not_or] at hnul
    exact hnul
  have hgots : gots.map cText = gots := by
    refine (List.map_congr_left fun got hgot => ?_).trans (List.map_id gots)
    exact Lib.cText_of_not_mem fun hmem => hclear.1 (List.mem_flatten.mpr ⟨got, hgot, hmem⟩)
  rw [hbuffers, hgots]
  split
  · next hdvd =>
    rw [hnil.mpr hdvd, List.append_nil] at hprinted
    rw [hprinted]
  · next hndvd =>
    rw [hlast fun hempty => hndvd (hnil.mp hempty), Lib.cText_of_not_mem hclear.2, hprinted, List.append_nil]

section Conversion

variable {σ : Type u} {cfg : ClientSettings} {p : Process σ}

/-- The polls that find the encoder at work collect what it prints. -/
theorem run_converting (h : p.Undisturbed) (hstate : p.client.mainState = .waitForEncodingFinished)
    (hproc : p.client.encodeProcess = true) {es : List (Remote σ × LocalAnswers)}
    (hrunning : ∀ e ∈ es, e.2.encoder.eof = false) :
    (Process.machine cfg).run p (es.map fun e => .poll e.1 e.2 none)
      = { p with client :=
          { p.client with stdOut := p.client.stdOut ++ (es.map fun e => e.2.encoder.buffer).flatten } } := by
  induction es generalizing p with
  | nil => simp
  | cons e es ih =>
    have heof : e.2.encoder.eof = false := hrunning e List.mem_cons_self
    have hhandle : p.client.handle e.1 cfg e.2 p.line
        = (p.line, { p.client with stdOut := p.client.stdOut ++ e.2.encoder.buffer }, .ok ()) := by
      simp only [Client.handle, hstate, hproc, if_true, Client.doConvert_of_running heof h.shutdown]
    obtain ⟨hpoll, h'⟩ := h.poll hhandle h.crashed h.stopRequested h.shutdown
    rw [List.map_cons, Machine.run_cons]
    show (Process.machine cfg).run (p.poll e.1 cfg e.2 none) _ = _
    rw [hpoll, ih h' hstate hproc fun e' he' => hrunning e' (List.mem_cons_of_mem e he')]
    simp [h.ending]

/-- The poll that finds that the encoder has failed. -/
theorem poll_failed (h : p.Undisturbed) (hstate : p.client.mainState = .waitForEncodingFinished)
    (hproc : p.client.encodeProcess = true) (r : Remote σ) {a : LocalAnswers} (hended : a.encoder.eof = true)
    (hforced : a.encoder.forced = false) (hexit : a.encoder.exit ≠ 0) :
    (p.poll r cfg a none).client
      = { ({ p.client with encodeProcess := false } : Client).convertFailed a.encoder.buffer with
          mainState := .sendResult } := by
  have hhandle : p.client.handle r cfg a p.line = (p.line, p.client.doConvert cfg a.encoder, .ok ()) := by
    simp only [Client.handle, hstate, hproc, if_true]
  rw [Client.doConvert_of_exited ⟨hended, h.shutdown, hforced⟩, Client.finishPass_of_failed hexit] at hhandle
  rw [(h.poll hhandle h.crashed h.stopRequested h.shutdown).1]

/-- The error text of a failed encoding is what the encoder printed, and what is in the buffer if the last look
finds nothing there. -/
theorem conversion_failed (h : p.Undisturbed) (hstate : p.client.mainState = .waitForEncodingFinished)
    (hproc : p.client.encodeProcess = true) {printed : Text} (hnul : nul ∉ printed)
    {es : List (Remote σ × LocalAnswers)} {r : Remote σ} {a : LocalAnswers}
    (hfinds : Finds (.opened printed) (es.map (fun e => e.2.encoder) ++ [a.encoder]))
    (hrunning : ∀ e ∈ es, e.2.encoder.eof = false) (hended : a.encoder.eof = true)
    (hforced : a.encoder.forced = false) (hexit : a.encoder.exit ≠ 0) :
    let p' := (Process.machine cfg).run p (es.map (fun e => .poll e.1 e.2 none) ++ [.poll r a none])
    p'.client.mainState = .sendResult ∧ p'.client.encResult.result = EncodingResult.unknownError.value ∧
      p'.client.encResult.error = p.client.stdOut ++ printed
        ++ if lineBufferSize - 1 ∣ (Pipe.unfinished printed).length then a.encoder.buffer else [] := by
  have hheard := hfinds.flatten hnul (List.forall_mem_map.mpr hrunning) hended
  rw [List.map_map] at hheard
  obtain ⟨q, hq⟩ : ∃ q : Process σ, q = { p with client :=
      { p.client with stdOut := p.client.stdOut ++ (es.map fun e => e.2.encoder.buffer).flatten } } := ⟨_, rfl⟩
  have hundisturbed : q.Undisturbed := by
    rw [hq]
    exact ⟨h.ending, h.crashed, h.stopRequested, h.shutdown⟩
  have hfailed : (q.poll r cfg a none).client = _ :=
    poll_failed hundisturbed (by rw [hq]; exact hstate) (by rw [hq]; exact hproc) r hended hforced hexit
  intro p'
  have hp' : p' = q.poll r cfg a none := by
    show (Process.machine cfg).run p _ = _
    rw [Machine.run_append, run_converting h hstate hproc hrunning, ← hq]
    rfl
  rw [hp', hfailed]
  refine ⟨rfl, rfl, ?_⟩
  show q.client.stdOut ++ a.encoder.buffer = _
  rw [hq, List.append_assoc, List.append_assoc]
  exact congrArg (p.client.stdOut ++ ·) hheard

/-- A client whose encoder runs. -/
def converting : Process Unit :=
  { Process.start 3 () with client :=
    { Client.start 3 with mainState := .waitForEncodingFinished, encodeProcess := true } }

/-- A look at an encoder that fails, and what is in the buffer after it. -/
def looksInto (buffer : Text) (eof : Bool) : LocalAnswers :=
  { LocalAnswers.working [] with
    encoder := { (LocalAnswers.working []).encoder with buffer := buffer, eof := eof, exit := 1 } }

/-- The encoder prints one line, and the second look finds nothing but what is left of the first one. -/
theorem conversion_failed_line :
    let p' := (Process.machine .gCfg).run converting
      ([(Remote.willing noSettings (true, []) true, looksInto "no\n".toList false)].map
          (fun e => .poll e.1 e.2 none)
        ++ [.poll (.willing noSettings (true, []) true) (looksInto "no\n".toList true) none])
    p'.client.mainState = .sendResult ∧ p'.client.encResult.result = EncodingResult.unknownError.value ∧
      p'.client.encResult.error = converting.client.stdOut ++ "no\n".toList
        ++ if lineBufferSize - 1 ∣ (Pipe.unfinished "no\n".toList).length then
            (looksInto "no\n".toList true).encoder.buffer else [] := by
  have hundisturbed : converting.Undisturbed := ⟨rfl, rfl, rfl, rfl⟩
  refine conversion_failed hundisturbed rfl rfl (by decide) ?_ ?_ rfl rfl (by decide)
  · refine ⟨?_, rfl, nofun, rfl, trivial⟩
    rintro got ⟨⟩
    decide
  · rintro e he
    rw [List.mem_singleton.mp he]
    rfl

end Conversion

end MediaArchiver
