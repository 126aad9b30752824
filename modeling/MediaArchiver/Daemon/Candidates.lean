/-
# MediaArchiver.Daemon.Candidates -- a candidate that is no good, and what the client hears of it

The database does not know whether the file it reserves is still there. The lambda of `getNextFile` was
meant to find out: its loop is to take another file when one cannot be opened, and to keep the error
from the client. But the handler inside the loop calls `respond_error`, which throws, so the first
candidate that has no bytes, does not open, or has no times ends the call, and its row stays started.

The call does what the loop is for exactly if the candidate that the database picks can be read
(`skips_iff`), and for all its choices exactly if every candidate can be. A daemon that was asked to stop
picks none.
-/
import MediaArchiver.Daemon.Handlers
import MediaArchiver.Store.Choice

namespace MediaArchiver

open ConnectedClient (Readable)

/-- The choice that keeps a given row whenever it can. -/
def LimitOne.preferring (row : Nat × SourceFile) : LimitOne where
  keep rows := if row ∈ rows then some row else rows.head?
  keep_mem := by
    intro rows r h
    split at h
    · rename_i hmem
      exact Option.some.inj h ▸ hmem
    · exact List.mem_of_mem_head? h
  keep_isSome := by
    intro rows h
    split
    · rfl
    · simpa [List.isSome_head?] using h

theorem LimitOne.keep_preferring {row : Nat × SourceFile} {rows : List (Nat × SourceFile)}
    (h : row ∈ rows) : (preferring row).keep rows = some row :=
  if_pos h

namespace Daemon

/-- The caller is given a file: it is open, it is the session's, and it has the length announced. -/
def HandsOut (id : SessionId) (r : Daemon × Outcome MediaEncoderSettings) (srcId : Nat) : Prop :=
  ∃ cli, r.1.session id = some cli ∧ r.2 = .answered cli.encSettings ∧ cli.originalFileId = srcId
    ∧ cli.inFile.isOpen = true ∧ cli.encSettings.fileLength ≠ 0

/-- What the loop around `getNextFile` is for. -/
structure Skips (id : SessionId) (src : SourceAnswers) (filter : MediaFileRequirements) (d : Daemon)
    (r : Daemon × Outcome MediaEncoderSettings) : Prop where
  finds : (∃ row ∈ d.db.candidates filter, Readable src row.2.info) → ∃ srcId, HandsOut id r srcId
  silent : ∀ text, r.2 ≠ .respondError text
  started : ∀ srcId, r.1.db.statuses srcId ≠ d.db.statuses srcId → 1 ∈ r.1.db.statuses srcId →
    HandsOut id r srcId

/-- What the database picks can be read; a daemon that stops picks nothing. -/
def PicksReadable (limit : LimitOne) (src : SourceAnswers) (filter : MediaFileRequirements)
    (d : Daemon) : Prop :=
  if d.stopRequested then ∀ row ∈ d.db.candidates filter, ¬ Readable src row.2.info
  else ∀ row, limit.keep (d.db.candidates filter) = some row → Readable src row.2.info

/-- Every candidate can be read; if the daemon stops, none. -/
def AllReadable (src : SourceAnswers) (filter : MediaFileRequirements) (d : Daemon) : Prop :=
  if d.stopRequested then ∀ row ∈ d.db.candidates filter, ¬ Readable src row.2.info
  else ∀ row ∈ d.db.candidates filter, Readable src row.2.info

variable {cfg : DaemonConfig} {d : Daemon} {id : SessionId} {cli : ConnectedClient}
  {limit : LimitOne} {src : SourceAnswers} {filter : MediaFileRequirements}

/-- The call of a known session. -/
theorem bound_getNextFile (hcli : d.session id = some cli) :
    Bound.getNextFile cfg id limit src filter true d
      = ({ d.store id (cli.getNextFile cfg d.stopRequested d.db limit src filter).2.1 none with
            db := (cli.getNextFile cfg d.stopRequested d.db limit src filter).1 },
        .guarded [] (cli.getNextFile cfg d.stopRequested d.db limit src filter).2.2) := by
  simp only [Bound.getNextFile, Srv.getNextFile, withClient, hcli, Bool.not_true, Bool.and_false,
    Bool.false_eq_true, if_false]

/-- A call that answers and changes no row does what it should if there is nothing to read. -/
theorem skips_of_answered {r : Daemon × Outcome MediaEncoderSettings} {settings : MediaEncoderSettings}
    (hanswer : r.2 = .answered settings) (hdb : r.1.db = d.db)
    (hnone : ∀ row ∈ d.db.candidates filter, ¬ Readable src row.2.info) :
    Skips id src filter d r where
  finds := by
    rintro ⟨row, hmem, hread⟩
    exact absurd hread (hnone row hmem)
  silent := by
    intro text h
    rw [hanswer] at h
    cases h
  started := by
    intro srcId hne
    rw [hdb] at hne
    exact absurd rfl hne

/-- One call does what its loop is for exactly if the candidate picked can be read. -/
theorem skips_one_iff (cfg : DaemonConfig) (hcli : d.session id = some cli)
    (hin : cli.inFile.isOpen = false) (hout : cli.outFile.isOpen = false) (src : SourceAnswers)
    (filter : MediaFileRequirements) (limit : LimitOne) :
    Skips id src filter d (Bound.getNextFile cfg id limit src filter true d)
      ↔ PicksReadable limit src filter d := by
  rw [bound_getNextFile hcli]
  unfold PicksReadable
  by_cases hstop : d.stopRequested = true
  · rw [if_pos hstop, hstop, ConnectedClient.getNextFile_of_stop cfg hin hout]
    refine ⟨?_, skips_of_answered rfl rfl⟩
    intro h row hmem hread
    obtain ⟨srcId, c, hc, -, -, hopen, -⟩ := h.finds ⟨row, hmem, hread⟩
    -- the session is as idle as before
    obtain rfl := Option.some.inj ((session_store d id _ none).symm.trans hc)
    rw [show ((cli.forget filter).announce cfg 0).inFile.isOpen = false from hin] at hopen
    cases hopen
  · rw [if_neg hstop, Bool.eq_false_iff.mpr hstop]
    cases hkeep : limit.keep (d.db.candidates filter) with
    | none =>
      rw [ConnectedClient.getNextFile_of_none cfg hin hout (Store.getNextFile_of_keep_none hkeep)]
      refine iff_of_true (skips_of_answered rfl rfl ?_) (fun row h => by cases h)
      rw [limit.keep_eq_none.mp hkeep]
      exact fun row h => absurd h List.not_mem_nil
    | some row =>
      obtain ⟨db', hdb⟩ := Store.getNextFile_of_keep_some hkeep
      by_cases hread : Readable src row.2.info
      · obtain ⟨c, heq, hserves, -⟩ :=
          ConnectedClient.getNextFile_of_readable cfg hin hout hdb hread
        rw [heq]
        have hout' : HandsOut id ({ d.store id c none with db := db' },
            Outcome.guarded [] (.ok c.encSettings)) row.1 :=
          ⟨c, session_store d id c none, rfl, hserves.id, hserves.isOpen,
            by rw [hserves.length]; exact hread.1⟩
        refine iff_of_true ⟨fun _ => ⟨row.1, hout'⟩, ?_, ?_⟩ ?_
        · intro text h
          cases h
        · intro srcId hne _
          have hsrc : srcId = row.1 := by
            by_contra hother
            exact hne ((Store.reserves_of_getNextFile hdb).others srcId hother)
          rw [hsrc]
          exact hout'
        · intro row' h
          rw [← Option.some.inj h]
          exact hread
      · obtain ⟨e, -, heq⟩ :=
          ConnectedClient.getNextFile_of_unreadable cfg hin hout hdb hread
        rw [heq]
        exact iff_of_false (fun h => h.silent _ rfl) (fun h => hread (h row rfl))

/-- All choices of the database pick a readable candidate exactly if there is no other. -/
theorem picksReadable_all_iff (src : SourceAnswers) (filter : MediaFileRequirements) (d : Daemon) :
    (∀ limit, PicksReadable limit src filter d) ↔ AllReadable src filter d := by
  unfold PicksReadable AllReadable
  by_cases hstop : d.stopRequested = true
  · simp only [hstop, if_true]
    exact ⟨fun h => h .first, fun h _ => h⟩
  · simp only [hstop, if_false, Bool.false_eq_true]
    constructor
    · intro h row hmem
      exact h (.preferring row) row (LimitOne.keep_preferring hmem)
    · intro h limit row hkeep
      exact h row (limit.keep_mem hkeep)

/-- The call of an idle session skips what it cannot read exactly if the database picks nothing of that
kind: one call for one choice of the database, every call for all of them. -/
theorem skips_iff (cfg : DaemonConfig) (hcli : d.session id = some cli)
    (hin : cli.inFile.isOpen = false) (hout : cli.outFile.isOpen = false) (src : SourceAnswers)
    (filter : MediaFileRequirements) :
    (∀ limit, Skips id src filter d (Bound.getNextFile cfg id limit src filter true d)
      ↔ PicksReadable limit src filter d) ∧
    ((∀ limit, Skips id src filter d (Bound.getNextFile cfg id limit src filter true d))
      ↔ AllReadable src filter d) := by
  have hone := skips_one_iff cfg hcli hin hout src filter
  refine ⟨hone, ?_⟩
  rw [← picksReadable_all_iff]
  exact forall_congr' hone

/-- A daemon with two sources and one session. -/
def twoSources : Daemon :=
  (machine gCfg).run (start .empty)
    [discovers "a.mov".toList [], discovers "b.mov".toList [], .authenticate 1 ⟨0, .zero⟩ "17".toList]

/-- Of the two files only the given one is still there. -/
def onlyThere (name : Path) : SourceAnswers :=
  ⟨fun path => if path = name then some [7] else none,
    fun path => if path = name then some .zero else none⟩

/-- The database picks the file that is there, but it does not have to. -/
theorem skips_first :
    Skips 1 (onlyThere "a.mov".toList) ⟨[], 0⟩ twoSources
      (Bound.getNextFile gCfg 1 .first (onlyThere "a.mov".toList) ⟨[], 0⟩ true twoSources) ∧
    ¬ ∀ limit, Skips 1 (onlyThere "a.mov".toList) ⟨[], 0⟩ twoSources
      (Bound.getNextFile gCfg 1 limit (onlyThere "a.mov".toList) ⟨[], 0⟩ true twoSources) := by
  obtain ⟨cli, hcli, hin, hout⟩ : ∃ cli, twoSources.session 1 = some cli ∧ cli.inFile.isOpen = false
      ∧ cli.outFile.isOpen = false := ⟨_, rfl, rfl, rfl⟩
  have hiff := skips_iff gCfg hcli hin hout (onlyThere "a.mov".toList) ⟨[], 0⟩
  refine ⟨(hiff.1 .first).mpr ?_, fun h => ?_⟩
  · intro row hrow
    obtain rfl : (1, ⟨"a.mov".toList, 1⟩) = row := Option.some.inj hrow
    decide
  · have hall : Readable (onlyThere "a.mov".toList) ⟨"b.mov".toList, 1⟩ :=
      hiff.2.mp h (2, ⟨"b.mov".toList, 1⟩) (by decide)
    exact absurd hall (by decide)

/-- The file that the database picks is gone. The client gets an error although there is another file,
and the row of the one that is gone says started. -/
theorem candidate_stranded :
    let r := Bound.getNextFile gCfg 1 .first (onlyThere "b.mov".toList) ⟨[], 0⟩ true twoSources
    r.2 = .respondError "Could not open file: a.mov".toList ∧ r.1.db.statuses 1 = [1] ∧
      (2, ⟨"b.mov".toList, 1⟩) ∈ twoSources.db.candidates ⟨[], 0⟩ ∧
      Readable (onlyThere "b.mov".toList) ⟨"b.mov".toList, 1⟩ ∧
      ¬ Skips 1 (onlyThere "b.mov".toList) ⟨[], 0⟩ twoSources r := by
  intro r
  exact ⟨rfl, rfl, by decide, by decide, fun h => h.silent _ rfl⟩

end Daemon

end MediaArchiver
