/-
# MediaArchiver.Daemon.Lengths -- the length announced and the length delivered

`getNextFile` announces the length that the catalogue has, and `readChunk` delivers the file that is on
the disk. The catalogue has its length from the watcher's report that made the row. A file that grows is
reported every time its writer closes it, but `addFile` leaves a row that exists as it is, so the length
stays that of the first report.

Daemon and disk are one machine here: files are written at any time, and what an event asks of the disk
is what is there (`World`). A file is `settled` when it was not written since its last `fileDiscovered`
or `fileCreated` was handled. If no such report finds a file that is catalogued with another length, the
rows of settled files have the lengths of the files (`Measured`), and what is announced is what there is
to deliver. It is delivered exactly if each call has its chunk and `readsome` finds something in the
stream while something is left (`announced_delivered`).
-/
import MediaArchiver.Daemon.Feedback
import MediaArchiver.Daemon.Candidates

namespace MediaArchiver

open Lib (Machine InStream)
open ConnectedClient (Readable)

/-! ## Reading to the end -/

/-- The bytes that the calls of `readChunk` deliver until the first that returns false. Of each call it is
given whether there is memory for its chunk, and what the stream has available. -/
def delivered (cfg : DaemonConfig) : List (Bool × Nat) → ConnectedClient → Option Nat
  | [], _ => none
  | (memory, avail) :: calls, cli =>
      match DataChunk.allocate memory cfg.chunkSize with
      | .error _ => none
      | .ok () =>
        match cli.readChunk cfg avail with
        | (_, .ok (false, data)) => some data.length
        | (cli, .ok (true, data)) => (delivered cfg calls cli).map (data.length + ·)
        | (_, .error _) => none

/-- Every call up to the one at the end of the file has its chunk; and as long as there is something left
in the file, the chunk is not empty and something is available. -/
def Supplies (cfg : DaemonConfig) : List (Bool × Nat) → ConnectedClient → Prop
  | [], _ => True
  | (memory, avail) :: calls, cli =>
      DataChunk.Allocates memory cfg.chunkSize ∧
        (cli.inFile.rest ≠ [] →
          (0 < cfg.chunkSize ∧ 0 < avail) ∧ Supplies cfg calls (cli.readChunk cfg avail).1)

instance decidableSupplies (cfg : DaemonConfig) (calls : List (Bool × Nat)) (cli : ConnectedClient) :
    Decidable (Supplies cfg calls cli) :=
  match calls with
  | [] => isTrue trivial
  | (_, avail) :: calls =>
      have : Decidable (Supplies cfg calls (cli.readChunk cfg avail).1) := decidableSupplies ..
      inferInstanceAs (Decidable (_ ∧ (_ → _ ∧ _)))

section Reading

variable {cfg : DaemonConfig} {cli : ConnectedClient} {memory : Bool} {avail : Nat}
  {calls : List (Bool × Nat)}

variable (cfg avail) in
/-- What a call takes is gone from what is left. -/
theorem rest_readsome (hready : cli.inFile.Ready) :
    (cli.inFile.readsome avail cfg.chunkSize).2.length
        = min (min avail cfg.chunkSize) cli.inFile.rest.length
      ∧ cli.inFile.rest.length = (cli.inFile.readsome avail cfg.chunkSize).2.length
        + (cli.inFile.readsome avail cfg.chunkSize).1.rest.length := by
  obtain ⟨hready', hfile, hoffset, -⟩ := InStream.readsome_ready hready avail cfg.chunkSize
  have hdata : (cli.inFile.readsome avail cfg.chunkSize).2
      = cli.inFile.rest.take (min avail cfg.chunkSize) := by
    simp only [InStream.readsome, hready.good, if_true]
  have hlen := congrArg List.length hdata
  rw [List.length_take] at hlen
  have hrest : (cli.inFile.readsome avail cfg.chunkSize).1.rest.length
      = cli.inFile.rest.length - (cli.inFile.readsome avail cfg.chunkSize).2.length := by
    rw [hready'.rest, hready.rest, hfile, hoffset, List.length_drop, List.length_drop, Nat.sub_add_eq]
  exact ⟨hlen, by omega⟩

/-- A call that takes nothing is the last one. -/
theorem delivered_cons (hready : cli.inFile.Ready) (hmem : DataChunk.Allocates memory cfg.chunkSize) :
    delivered cfg ((memory, avail) :: calls) cli =
      if (cli.inFile.readsome avail cfg.chunkSize).2.length = 0 then some 0
      else (delivered cfg calls (cli.readChunk cfg avail).1).map
        ((cli.inFile.readsome avail cfg.chunkSize).2.length + ·) := by
  rw [delivered, DataChunk.allocate_of_allocates hmem, ConnectedClient.readChunk_ready hready]
  by_cases hnone : (cli.inFile.readsome avail cfg.chunkSize).2.length = 0
  · simp only [hnone, ne_eq, not_true_eq_false, decide_false, if_true]
  · simp only [hnone, ne_eq, not_false_eq_true, decide_true, if_false]

/-- What is left of a source that is in order is delivered by enough calls, exactly if they are supplied. -/
theorem delivered_iff (hready : cli.inFile.Ready) (hcalls : cli.inFile.rest.length < calls.length) :
    delivered cfg calls cli = some cli.inFile.rest.length ↔ Supplies cfg calls cli := by
  induction calls generalizing cli with
  | nil => exact absurd hcalls (Nat.not_lt_zero _)
  | cons call calls ih =>
    obtain ⟨memory, avail⟩ := call
    rw [Supplies]
    by_cases hmem : DataChunk.Allocates memory cfg.chunkSize
    case neg =>
      obtain ⟨e, herror⟩ := DataChunk.allocate_of_not_allocates hmem
      rw [delivered, herror]
      exact iff_of_false nofun fun h => hmem h.1
    obtain ⟨htaken, hleft⟩ := rest_readsome cfg avail hready
    rw [delivered_cons hready hmem]
    by_cases hend : cli.inFile.rest = []
    · rw [hend, List.length_nil, Nat.min_zero] at htaken
      rw [if_pos htaken, hend]
      exact iff_of_true rfl ⟨hmem, fun hne => absurd rfl hne⟩
    have hpos : 0 < cli.inFile.rest.length := List.length_pos_iff.mpr hend
    by_cases hgets : 0 < cfg.chunkSize ∧ 0 < avail
    · have hsome : (cli.inFile.readsome avail cfg.chunkSize).2.length ≠ 0 := by omega
      have hnext := @ih (cli.readChunk cfg avail).1
      rw [ConnectedClient.readChunk_ready hready] at hnext ⊢
      have hready' := (InStream.readsome_ready hready avail cfg.chunkSize).1
      rw [List.length_cons] at hcalls
      have hiff := hnext hready' (show (cli.inFile.readsome avail cfg.chunkSize).1.rest.length < _ by omega)
      rw [if_neg hsome, ← hiff]
      simp only [hmem, hend, hgets, ne_eq, not_false_eq_true, and_self, true_and, forall_const,
        Option.map_eq_some_iff]
      constructor
      · rintro ⟨n, hn, hsum⟩
        rw [hn, show n = (cli.inFile.readsome avail cfg.chunkSize).1.rest.length by omega]
      · exact fun hn => ⟨_, hn, hleft.symm⟩
    · have hnone : (cli.inFile.readsome avail cfg.chunkSize).2.length = 0 := by omega
      rw [if_pos hnone]
      refine iff_of_false (fun hzero => ?_) fun h => hgets (h.2 hend).1
      rw [← Option.some.inj hzero] at hpos
      exact absurd hpos (Nat.lt_irrefl 0)

end Reading

/-! ## Daemon and disk -/

/-- The files, by their paths. -/
abbrev Disk := Path → Option Bytes

/-- What `stat` says. -/
def Disk.getFileSize (disk : Disk) (path : Path) : Option Nat := (disk path).map List.length

/-- The event, with the disk's answers to what it asks of the disk. -/
def DaemonEvent.on (disk : Disk) : DaemonEvent → DaemonEvent
  | .fileSystemChange _ e dst => .fileSystemChange disk.getFileSize e dst
  | .getNextFile id limit src filter => .getNextFile id limit ⟨disk, src.getFileTimes⟩ filter
  | e => e

/-- The daemon, the disk, and which files were not written since they were last reported. -/
structure World where
  daemon : Daemon
  disk : Disk
  settled : Path → Bool

/-- Somebody writes or deletes a file, or something happens to the daemon. -/
inductive WorldEvent where
  | write (path : Path) (content : Option Bytes)
  | daemon (e : DaemonEvent)

/-- The reports after which a file is taken for complete. -/
def EventType.Settles (e : EventType) : Prop := e = .fileDiscovered ∨ e = .fileCreated

instance (e : EventType) : Decidable e.Settles := inferInstanceAs (Decidable (_ ∨ _))

namespace World

/-- A daemon on a new database, and any files. -/
def start (disk : Disk) : World := ⟨Daemon.start .empty, disk, fun _ => false⟩

/-- The file that an event settles: a report of a file that is there. -/
def settles (w : World) : WorldEvent → Option Path
  | .daemon (.fileSystemChange _ e dst) =>
      if e.Settles ∧ (w.disk dst).isSome = true then some dst else none
  | _ => none

/-- One event. -/
def step (cfg : DaemonConfig) (w : World) (e : WorldEvent) : World :=
  match e with
  | .write path content =>
      { w with
        disk := Function.update w.disk path content
        settled := Function.update w.settled path false }
  | .daemon event =>
      { w with
        daemon := (Daemon.machine cfg).step w.daemon (event.on w.disk)
        settled := fun path => w.settled path || decide (w.settles e = some path) }

/-- Daemon and disk as one machine. -/
def machine (cfg : DaemonConfig) : Machine World WorldEvent where
  step := step cfg

/-- The catalogue has the length of every settled file. -/
def Measured (w : World) : Prop :=
  ∀ r ∈ w.daemon.db.sourcefiles.rows, w.settled r.2.path = true →
    w.disk.getFileSize r.2.path = some r.2.size

/-- A file that is reported again has the length it is catalogued with. -/
def FoundAgain (w : World) (e : WorldEvent) : Prop :=
  ∀ path ∈ w.settles e, ∀ r ∈ w.daemon.db.sourcefiles.rows, r.2.path = path →
    w.disk.getFileSize path = some r.2.size

instance (w : World) (e : WorldEvent) : Decidable (w.FoundAgain e) :=
  inferInstanceAs (Decidable (∀ path ∈ _, ∀ r ∈ _, _ → _))

/-! ## What the reports measure -/

end World

/-- A counterpart with a size is there, and has that size. -/
theorem DaemonConfig.getFileSize_of_counterpart {getFileSize : Path → Option Nat} {aName : Path}
    (h : 0 < DaemonConfig.counterpartSize getFileSize aName) :
    getFileSize aName = some (DaemonConfig.counterpartSize getFileSize aName) := by
  have hne := DaemonConfig.ne_nil_of_counterpartSize h
  simp only [DaemonConfig.counterpartSize, if_neg hne] at h ⊢
  cases hsize : getFileSize aName with
  | none =>
    rw [hsize] at h
    exact absurd h (Nat.lt_irrefl 0)
  | some size => rfl

/-- The source that a report catalogues is given with the size it has. -/
theorem DaemonConfig.getFileSize_src {cfg : DaemonConfig} {getFileSize : Path → Option Nat}
    {e : EventType} {dst : Path} {call : DaemonConfig.AddFileCall} {s : BasicFileInfo}
    (hcall : cfg.addFileCall getFileSize e dst = some call) (hs : call.src = some s) :
    getFileSize s.fileName = some s.fileSize := by
  obtain ⟨-, size, hsize, ⟨-, aName, -, hpair⟩ | ⟨-, -, hpair⟩⟩ := DaemonConfig.addFileCall_cases hcall
  · obtain ⟨hsrc, -⟩ := DaemonConfig.pairUp_eq_some hpair
    rw [if_pos rfl, hs] at hsrc
    split at hsrc
    · rename_i hpos
      obtain rfl := Option.some.inj hsrc
      exact DaemonConfig.getFileSize_of_counterpart hpos
    · cases hsrc
  · obtain ⟨hsrc, -⟩ := DaemonConfig.pairUp_eq_some hpair
    rw [hs] at hsrc
    obtain rfl := Option.some.inj hsrc
    exact hsize

/-- A row that comes into the catalogue is one of a report. -/
theorem Daemon.Does.mem_rows {cfg : DaemonConfig} {d d' : Daemon} {e : DaemonEvent}
    (h : Daemon.Does cfg d e d') {r : Nat × SourceFile} (hr : r ∈ d'.db.sourcefiles.rows) :
    r ∈ d.db.sourcefiles.rows ∨
      ∃ getFileSize event dst, e = .fileSystemChange getFileSize event dst
        ∧ getFileSize r.2.path = some r.2.size := by
  cases h with
  | nothing | authenticate | keep | forget | postFile | writeChunk | drop | take | stop | restart
  | abort => exact Or.inl hr
  | reserve _ _ _ hdb =>
    have hsame := (Store.reserves_of_getNextFile hdb).sourcefiles
    exact Or.inl (hsame ▸ hr)
  | strand _ _ _ _ hdb =>
    have hsame := (Store.reserves_of_getNextFile hdb).sourcefiles
    exact Or.inl (hsame ▸ hr)
  | finish => exact Or.inl (d.db.sourcefiles_finishMove _ _ ▸ hr)
  | @addFile getFileSize event dst call hcall =>
    rcases Store.mem_rows_addFile hr with hold | ⟨s, hgiven, rfl, -⟩
    · exact Or.inl hold
    · refine Or.inr ⟨getFileSize, event, dst, rfl, ?_⟩
      exact DaemonConfig.getFileSize_src hcall (Option.filter_eq_some_iff.mp hgiven).1

namespace World

variable {cfg : DaemonConfig} {w : World} {e : WorldEvent}

/-- A step that finds files again as they were catalogued keeps the lengths right. -/
theorem Measured.step (h : Measured w) (cfg : DaemonConfig) (hfound : FoundAgain w e) :
    Measured ((machine cfg).step w e) := by
  intro r hr hsettled
  cases e with
  | write path content =>
    have hsettled' : Function.update w.settled path false r.2.path = true := hsettled
    have hother : r.2.path ≠ path := by
      intro heq
      rw [heq, Function.update_self] at hsettled'
      cases hsettled'
    rw [Function.update_of_ne hother] at hsettled'
    show Disk.getFileSize (Function.update w.disk path content) r.2.path = _
    rw [Disk.getFileSize, Function.update_of_ne hother]
    exact h r hr hsettled'
  | daemon event =>
    show w.disk.getFileSize r.2.path = some r.2.size
    rcases (Daemon.step_does cfg w.daemon (event.on w.disk)).mem_rows hr with hold |
      ⟨getFileSize, change, dst, hevent, hsize⟩
    · rcases Bool.or_eq_true_iff.mp hsettled with hbefore | hnow
      · exact h r hold hbefore
      · exact hfound r.2.path (of_decide_eq_true hnow) r hold rfl
    · cases event with
      | fileSystemChange getFileSize' change' dst' =>
        obtain ⟨rfl, -, -⟩ := DaemonEvent.fileSystemChange.inj hevent
        exact hsize
      | _ => cases hevent

theorem measured_start (disk : Disk) : Measured (start disk) :=
  fun _ hr => absurd hr List.not_mem_nil

end World

/-! ## What is announced is delivered -/

/-- A file that is handed out is one of the catalogue, announced with the length it has there, and open
as it is on the disk. -/
theorem Daemon.HandsOut.source {cfg : DaemonConfig} {d : Daemon} {id : SessionId} {limit : LimitOne}
    {src : SourceAnswers} {filter : MediaFileRequirements} {srcId : Nat}
    (h : Daemon.HandsOut id (Daemon.Bound.getNextFile cfg id limit src filter true d) srcId) :
    ∃ cli content,
      (Daemon.Bound.getNextFile cfg id limit src filter true d).1.session id = some cli
      ∧ (Daemon.Bound.getNextFile cfg id limit src filter true d).2 = .answered cli.encSettings
      ∧ (srcId, ⟨cli.originalFileName, cli.encSettings.fileLength⟩) ∈ d.db.sourcefiles.rows
      ∧ src.content cli.originalFileName = some content ∧ cli.inFile = .opened content := by
  cases hcli : d.session id with
  | none =>
    obtain ⟨cli, -, hanswer, -⟩ := h
    simp only [Daemon.Bound.getNextFile, Bool.not_true, Bool.and_false, Bool.false_eq_true, if_false,
      Daemon.Srv.getNextFile, Daemon.withClient_none hcli, Outcome.guarded] at hanswer
    cases hanswer
  | some cli =>
    rw [Daemon.bound_getNextFile hcli] at h ⊢
    rcases cli.getNextFile_refused_or_idle cfg d.stopRequested d.db limit src filter with
      ⟨e, heq⟩ | ⟨hin, hout⟩
    · rw [heq] at h
      obtain ⟨c, -, hanswer, -⟩ := h
      cases hanswer
    rcases ConnectedClient.getNextFile_cases hin hout cfg d.stopRequested d.db limit src filter with
      ⟨-, heq⟩ | ⟨db', srcId', file, -, hdb, ⟨-, e, -, heq⟩ | ⟨-, c, heq, hserves, -, -⟩⟩
    · -- a session that is given no file has none open
      rw [heq] at h
      obtain ⟨c, hc, -, -, hopen, -⟩ := h
      obtain rfl := Option.some.inj ((Daemon.session_store d id _ none).symm.trans hc)
      rw [show ((cli.forget filter).announce cfg 0).inFile.isOpen = false from hin] at hopen
      cases hopen
    · rw [heq] at h
      obtain ⟨c, -, hanswer, -⟩ := h
      cases hanswer
    · rw [heq] at h ⊢
      obtain ⟨c', hc', -, hid, -⟩ := h
      obtain rfl := Option.some.inj ((Daemon.session_store d id c none).symm.trans hc')
      obtain ⟨content, hcontent, hopened⟩ := hserves.source
      refine ⟨c, content, Daemon.session_store d id c none, rfl, ?_, ?_, hopened⟩
      · rw [hserves.name, hserves.length, ← hid, hserves.id]
        exact (Store.reserves_of_getNextFile hdb).catalogued
      · rw [hserves.name]
        exact hcontent

namespace World

/-- In every run whose reports find files again as they were catalogued, what is announced for a settled
file is what enough calls deliver, exactly if they are supplied. -/
theorem announced_delivered (cfg : DaemonConfig) (disk : Disk)
    {es : List WorldEvent} (hfound : (machine cfg).Along FoundAgain (start disk) es)
    (id : SessionId) (limit : LimitOne) (src : SourceAnswers) (filter : MediaFileRequirements)
    (srcId : Nat) :
    let w := (machine cfg).run (start disk) es
    let r := Daemon.Bound.getNextFile cfg id limit ⟨w.disk, src.getFileTimes⟩ filter true w.daemon
    Daemon.HandsOut id r srcId → ∃ cli, r.1.session id = some cli ∧ r.2 = .answered cli.encSettings ∧
      (w.settled cli.originalFileName = true → ∀ calls, cli.encSettings.fileLength < calls.length →
        (delivered cfg calls cli = some cli.encSettings.fileLength ↔ Supplies cfg calls cli)) := by
  intro w r hout
  obtain ⟨cli, content, hcli, hanswer, hrow, hcontent, hopened⟩ := Daemon.HandsOut.source hout
  refine ⟨cli, hcli, hanswer, fun hsettled calls hcalls => ?_⟩
  have hmeasured : Measured w := (machine cfg).invariant (P := Measured)
    (fun w e h hfound => h.step cfg hfound) (measured_start disk) hfound
  have hsize : w.disk.getFileSize cli.originalFileName = some cli.encSettings.fileLength :=
    hmeasured _ hrow hsettled
  have hready : cli.inFile.Ready := hopened ▸ InStream.ready_opened content
  have hrest : cli.inFile.rest.length = cli.encSettings.fileLength := by
    have hlength : (w.disk cli.originalFileName).map List.length = some cli.encSettings.fileLength := hsize
    rw [show w.disk cli.originalFileName = some content from hcontent] at hlength
    rw [hready.rest, hopened]
    exact Option.some.inj hlength
  rw [← hrest] at hcalls ⊢
  exact delivered_iff hready hcalls

/-- A file is written and reported. -/
def writes (path : Path) (content : Bytes) : List WorldEvent :=
  [.write path (some content), .daemon (.fileSystemChange (fun _ => none) .fileCreated path)]

/-- A session authenticates. -/
def comes (id : SessionId) : WorldEvent := .daemon (.authenticate id ⟨0, .zero⟩ "t".toList)

/-- The times of all files are known. -/
def anyTimes : SourceAnswers := ⟨fun _ => none, fun _ => some .zero⟩

/-- A file is written and reported, and later reported once more as it was. -/
theorem announced_delivered_twice :
    let es := writes "a.mov".toList [7, 8] ++ [comes 1,
      .daemon (.fileSystemChange (fun _ => none) .fileDiscovered "a.mov".toList)]
    let w := (machine gCfg).run (start fun _ => none) es
    ∃ cli, (Daemon.Bound.getNextFile gCfg 1 .first ⟨w.disk, anyTimes.getFileTimes⟩ ⟨[], 0⟩ true
        w.daemon).1.session 1 = some cli
      ∧ delivered gCfg [(true, 1), (true, 1), (true, 0)] cli = some cli.encSettings.fileLength := by
  intro es w
  have hfound : (machine gCfg).Along FoundAgain (start fun _ => none) es := by decide
  obtain ⟨cli, hcli, -, hdelivered⟩ := announced_delivered gCfg _ hfound 1 .first anyTimes ⟨[], 0⟩
    1 ⟨_, rfl, rfl, rfl, rfl, by decide⟩
  refine ⟨cli, hcli, ?_⟩
  obtain rfl := Option.some.inj hcli
  exact (hdelivered rfl [(true, 1), (true, 1), (true, 0)] (by decide)).mpr (by decide)

/-- A file grows and is reported again when it is complete. One byte is announced and two are
delivered. -/
theorem announced_short :
    let es := writes "a.mov".toList [7] ++ writes "a.mov".toList [7, 8] ++ [comes 1]
    let w := (machine gCfg).run (start fun _ => none) es
    let r := Daemon.Bound.getNextFile gCfg 1 .first ⟨w.disk, anyTimes.getFileTimes⟩ ⟨[], 0⟩ true w.daemon
    w.settled "a.mov".toList = true ∧ ∃ cli, r.1.session 1 = some cli ∧ r.2 = .answered cli.encSettings
      ∧ cli.encSettings.fileLength = 1 ∧ delivered gCfg [(true, 2), (true, 0)] cli = some 2 := by
  intro es w r
  exact ⟨rfl, _, rfl, rfl, rfl, rfl⟩

end World

end MediaArchiver
