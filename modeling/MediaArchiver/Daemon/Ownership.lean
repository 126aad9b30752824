/-
# MediaArchiver.Daemon.Ownership -- every started file is in somebody's hands

A file is owned by the sessions that go by its id and by the entries of the mover that do. `owners`
counts them. The invariant `Owned` says that no file has two owners, that an owned file is reserved in
the database (`Store.Reserved`, so it is not handed out again), and that a started file has an owner,
without which it would never be touched again. A new session may go by the id of some file by accident. Of
these ids (`strays`) only the last is true.

`Safe` names the steps that lose an owner. A file that was reserved and cannot be opened is not given
back. A session that is overwritten, or one that fetches the next file after its temp file could not be
opened, takes the id it held with it. A client may post the status "started" as a result. And a restart
forgets all sessions but resets no row. A file gets a second owner if a new session goes by a started file, or
goes by one that is handed out later.
-/
import MediaArchiver.Store.Reservation
import MediaArchiver.Daemon.Sessions

namespace MediaArchiver

open Lib (Machine Table)
open Connections (TokensUnique)
open ConnectedClient (SameFile Idle HandsOver Readable)
open Store (Held Offerable Reserved)

/-! ## Counting sessions -/

namespace Connections

/-- The number of sessions that go by an id. -/
def holders (c : Connections) (id : Nat) : Nat := c.rows.countP fun r => r.2.originalFileId = id

/-- Replacing a session exchanges one holder for another. -/
theorem holders_insert {c : Connections} {sid : SessionId} {cli : ConnectedClient}
    (hcli : c.find? sid = some cli) (cli' : ConnectedClient) (id : Nat) :
    holders (c.insert sid cli') id + (if cli.originalFileId = id then 1 else 0)
      = holders c id + if cli'.originalFileId = id then 1 else 0 := by
  have hcount := Table.countP_insert_of_find? hcli cli' fun r => r.2.originalFileId = id
  simpa only [holders, decide_eq_true_eq] using hcount

/-- Of the sessions with a token, those that go by an id: none, and a new session does not either; or the
one that the token is bound to. -/
theorem countP_token {c : Connections} (hu : TokensUnique c) {junk : Uninitialised} {token : Text} {id : Nat}
    (hjunk : (∀ r ∈ c.rows, r.2.token ≠ token) → junk.originalFileId ≠ id) :
    (c.rows.filter fun r => r.2.token = token).countP (fun r => r.2.originalFileId = id)
      = if (c.bound junk token).originalFileId = id then 1 else 0 := by
  rcases c.bound_cases junk token with ⟨r, hr, htoken, hbound⟩ | ⟨hnone, hbound⟩
  · have hone : (c.rows.filter fun s => s.2.token = token) = [r] := by
      apply Table.filter_eq_singleton c hr (decide_eq_true htoken)
      intro s hs hst
      exact hu s hs r hr ((of_decide_eq_true hst).trans htoken.symm)
    rw [hone, hbound, List.countP_singleton]
    simp only [decide_eq_true_eq]
  · have hnil : (c.rows.filter fun s => s.2.token = token) = [] :=
      List.filter_eq_nil_iff.mpr fun s hs => by simpa using hnone s hs
    rw [hnil, hbound, List.countP_nil, if_neg]
    exact hjunk hnone

/-- Authentication moves the holder that has the token; what it loses is the session of another token
at the id of the call. -/
theorem holders_authenticate {c : Connections} (hu : TokensUnique c) (sid : SessionId)
    {junk : Uninitialised} {token : Text} {id : Nat}
    (hjunk : (∀ r ∈ c.rows, r.2.token ≠ token) → junk.originalFileId ≠ id) :
    holders (c.authenticate sid junk token) id
      + ((c.filter fun r => r.2.token ≠ token).rows.filter fun r => r.1 = sid).countP
          (fun r => r.2.originalFileId = id)
      = holders c id := by
  have hinsert := (c.filter fun r => r.2.token ≠ token).countP_insert sid (c.bound junk token)
    fun r => r.2.originalFileId = id
  have hsplit := List.countP_eq_countP_filter_add c.rows
    (fun r => decide (r.2.originalFileId = id)) fun r => decide (r.2.token ≠ token)
  have hmoved : (c.rows.filter fun r => !decide (r.2.token ≠ token)).countP
      (fun r => decide (r.2.originalFileId = id))
      = if (c.bound junk token).originalFileId = id then 1 else 0 := by
    rw [← countP_token hu hjunk]
    simp only [ne_eq, decide_not, Bool.not_not]
  rw [hmoved] at hsplit
  have hrows : (c.filter fun r => r.2.token ≠ token).rows
      = c.rows.filter fun r => decide (r.2.token ≠ token) := rfl
  simp only [holders, authenticate, decide_eq_true_eq] at hinsert hsplit ⊢
  rw [hrows] at hinsert ⊢
  omega

end Connections

/-! ## Owners -/

namespace Daemon

variable {cfg : DaemonConfig} {d d' : Daemon} {e : DaemonEvent} {strays : List Nat}

/-- The number of sessions and entries that go by an id. -/
def owners (d : Daemon) (id : Nat) : Nat :=
  d.connections.holders id + d.entries.countP fun ftm => ftm.result.originalFileId = id

theorem owners_store {sid : SessionId} {cli : ConnectedClient} (hcli : d.session sid = some cli)
    (cli' : ConnectedClient) (queued : Option FileToMove) (id : Nat) :
    (d.store sid cli' queued).owners id + (if cli.originalFileId = id then 1 else 0)
      = d.owners id + (if cli'.originalFileId = id then 1 else 0)
        + queued.toList.countP fun ftm => ftm.result.originalFileId = id := by
  have hholders := Connections.holders_insert hcli cli' id
  simp only [owners, entries, connections_store, moving_store, filesToMove_store,
    List.countP_append]
  omega

/-- A session owns what it goes by. -/
theorem owners_pos {sid : SessionId} {cli : ConnectedClient} (hcli : d.session sid = some cli) :
    0 < d.owners cli.originalFileId := by
  refine Nat.add_pos_left (List.countP_pos_iff.mpr ⟨(sid, cli), ?_, decide_eq_true rfl⟩) _
  exact d.connections.find?_eq_some.mp hcli

/-- A session that gives its file up is one owner less. -/
theorem owners_idle {sid : SessionId} {cli cli' : ConnectedClient} (hcli : d.session sid = some cli)
    (idle : Idle cli cli') {id : Nat} (hid : id ≠ 0) :
    (d.store sid cli' none).owners id + (if cli.originalFileId = id then 1 else 0) = d.owners id := by
  have hstore := owners_store hcli cli' none id
  rw [idle.id, if_neg (Ne.symm hid)] at hstore
  simpa using hstore

/-- A session that hands its file over passes the ownership on. -/
theorem owners_handOver {sid : SessionId} {cli cli' : ConnectedClient} {result : EncodingResultInfo}
    {move : FileToMove} (hcli : d.session sid = some cli) (hands : HandsOver cli cfg result cli' move)
    {id : Nat} (hid : id ≠ 0) : (d.store sid cli' (some move)).owners id = d.owners id := by
  have hstore := owners_store hcli cli' (some move) id
  rw [hands.id, if_neg (Ne.symm hid), Option.toList_some, List.countP_singleton, hands.moveId] at hstore
  simp only [decide_eq_true_eq] at hstore
  omega

/-- No file has two owners and an owned file is reserved, apart from the strays; and a started file is owned
once. -/
structure Owned (strays : List Nat) (d : Daemon) : Prop where
  once : ∀ id, id ≠ 0 → id ∉ strays → d.owners id ≤ 1
  reserved : ∀ id, id ≠ 0 → id ∉ strays → 0 < d.owners id → d.db.Reserved id
  started : ∀ id, 1 ∈ d.db.statuses id → id ≠ 0 ∧ d.owners id = 1

/-- Losing owners of files that are not started does no harm. -/
theorem Owned.of_le (h : Owned strays d) (hdb : d'.db = d.db)
    (hle : ∀ id, id ≠ 0 → id ∉ strays → d'.owners id ≤ d.owners id)
    (hstarted : ∀ id, id ≠ 0 → 1 ∈ d.db.statuses id → d'.owners id = d.owners id) : Owned strays d' := by
  refine ⟨fun id hid hstray => Nat.le_trans (hle id hid hstray) (h.once id hid hstray), ?_, ?_⟩
  · intro id hid hstray hpos
    rw [hdb]
    exact h.reserved id hid hstray (Nat.lt_of_lt_of_le hpos (hle id hid hstray))
  · intro id hst
    rw [hdb] at hst
    obtain ⟨hid, hone⟩ := h.started id hst
    exact ⟨hid, (hstarted id hid hst).trans hone⟩

/-- What keeps the owners of every file keeps the invariant. -/
theorem Owned.of_eq (h : Owned strays d) (hdb : d'.db = d.db)
    (hsame : ∀ id, id ≠ 0 → d'.owners id = d.owners id) : Owned strays d' :=
  h.of_le hdb (fun id hid _ => Nat.le_of_eq (hsame id hid)) fun id hid _ => hsame id hid

/-! ## Which steps are safe -/

/-- A started file does not lose its owner in the step, and gets no other. `strays` has the ids by which new
sessions may go. -/
def Safe (strays : List Nat) (d : Daemon) : DaemonEvent → Prop
  -- a session with a new token goes by no started file, and none is overwritten that holds one
  | .authenticate sid junk token =>
      ((∀ r ∈ d.connections.rows, r.2.token ≠ token) → junk.originalFileId = 0 ∨
        junk.originalFileId ∈ strays ∧ 1 ∉ d.db.statuses junk.originalFileId) ∧
      ∀ cli ∈ d.session sid, cli.token ≠ token → 1 ∉ d.db.statuses cli.originalFileId
  -- the session holds no started file any more, the file reserved for it can be opened, and if it may be a
  -- stray, no other session goes by it
  | .getNextFile sid limit src filter =>
      ∀ cli ∈ d.session sid, cli.inFile.isOpen = false → cli.outFile.isOpen = false →
        1 ∉ d.db.statuses cli.originalFileId ∧
          (d.stopRequested = false → ∀ found ∈ (d.db.getNextFile limit filter).2,
            Readable src found.2 ∧
              (found.1 ∈ strays → d.owners found.1 = if cli.originalFileId = found.1 then 1 else 0))
  -- the client did not post "started" as its result
  | .moverFinish _ => ∀ ftm ∈ d.moving, ftm.result.result ≠ EncodingResult.started.value
  -- nothing is started
  | .restart => ∀ q ∈ d.db.queue, q.status ≠ 1
  | _ => True

instance (strays : List Nat) (d : Daemon) : DecidablePred (Safe strays d)
  | .authenticate .. =>
      inferInstanceAs (Decidable (((∀ r ∈ _, _) → _ ∨ _ ∧ _) ∧ ∀ cli ∈ _, _ → _))
  | .getNextFile .. =>
      inferInstanceAs (Decidable (∀ cli ∈ _, _ → _ → _ ∧ (_ → ∀ found ∈ _, _ ∧ (_ → _))))
  | .moverFinish _ => inferInstanceAs (Decidable (∀ ftm ∈ _, _))
  | .restart => inferInstanceAs (Decidable (∀ q ∈ _, _))
  | .reset .. | .abort .. | .readChunk .. | .postFile .. | .writeChunk .. | .fileSystemChange ..
  | .moverTake | .stop => inferInstanceAs (Decidable True)

theorem Safe.restart (h : Safe strays d .restart) (id : Nat) : 1 ∉ d.db.statuses id := by
  intro hst
  obtain ⟨q, hq, _, hstatus⟩ := Store.mem_statuses.mp hst
  exact h q hq hstatus

/-- The mover writes "started" only if the client posted it. -/
theorem movedStatus_ne_one {ftm : FileToMove} (h : ftm.result.result ≠ EncodingResult.started.value)
    (outcome : MoveOutcome) : Store.movedStatus ftm outcome ≠ 1 := by
  unfold Store.movedStatus
  split
  · decide
  · intro heq
    exact h (Int8.toInt_inj.mp heq)

theorem Owned.authenticate (h : Owned strays d) (hu : TokensUnique d.connections) {sid : SessionId}
    {junk : Uninitialised} {token : Text} (hsafe : Safe strays d (.authenticate sid junk token)) :
    Owned strays { d with connections := d.connections.authenticate sid junk token } := by
  obtain ⟨hjunk, hover⟩ := hsafe
  have hother : ∀ id, id ≠ 0 → id ∉ strays ∨ 1 ∈ d.db.statuses id →
      (∀ r ∈ d.connections.rows, r.2.token ≠ token) → junk.originalFileId ≠ id := by
    rintro id hid hcase hnew rfl
    rcases hjunk hnew with hzero | ⟨hstray, hst⟩
    · exact hid hzero
    · exact hcase.elim (absurd hstray) hst
  refine h.of_le rfl ?_ ?_
  · intro id hid hstray
    have heq := d.connections.holders_authenticate hu sid (hother id hid (Or.inl hstray))
    refine Nat.add_le_add_right ?_ _
    show Connections.holders (d.connections.authenticate sid junk token) id ≤ _
    omega
  · intro id hid hst
    have heq := d.connections.holders_authenticate hu sid (hother id hid (Or.inr hst))
    have hzero : ((d.connections.filter fun r => r.2.token ≠ token).rows.filter
        fun r => r.1 = sid).countP (fun r => r.2.originalFileId = id) = 0 := by
      refine List.countP_eq_zero.mpr fun r hr hrid => ?_
      obtain ⟨hr, hsid⟩ := List.mem_filter.mp hr
      obtain ⟨hr, htoken⟩ := (Table.mem_filter _ _ _).mp hr
      simp only [decide_eq_true_eq] at hrid hsid htoken
      refine hover r.2 ?_ htoken ?_
      · rw [← hsid]
        exact d.connections.find?_eq_some.mpr hr
      · rw [hrid]
        exact hst
    refine congrArg (· + _) ?_
    show Connections.holders (d.connections.authenticate sid junk token) id = _
    omega

/-- Nobody goes by a file that is offered, but perhaps as a stray. -/
theorem Owned.owners_offered (h : Owned strays d) {id : Nat} (hid : id ≠ 0) (hstray : id ∉ strays)
    (hoffered : Offerable (d.db.statuses id)) : d.owners id = 0 := by
  by_contra hpos
  exact (h.reserved id hid hstray (Nat.pos_of_ne_zero hpos)).held.not_offerable hoffered

/-- A session without a started file gets the file that was reserved for it. -/
theorem Owned.reserve (h : Owned strays d) {sid : SessionId} {cli cli' : ConnectedClient} {db' : Store}
    {limit : LimitOne} {filter : MediaFileRequirements} {srcId : Nat} {file : BasicFileInfo}
    (hcli : d.session sid = some cli) (hst : 1 ∉ d.db.statuses cli.originalFileId)
    (hdb : d.db.getNextFile limit filter = (db', some (srcId, file)))
    (hstray : srcId ∈ strays → d.owners srcId = if cli.originalFileId = srcId then 1 else 0)
    (hid : cli'.originalFileId = srcId) : Owned strays { d.store sid cli' none with db := db' } := by
  have hres := Store.reserves_of_getNextFile hdb
  have hne : srcId ≠ 0 := Nat.ne_of_gt (d.db.sourcefiles.key_pos _ hres.catalogued)
  -- nobody but the session itself
  have hnone : d.owners srcId = if cli.originalFileId = srcId then 1 else 0 := by
    by_cases hmem : srcId ∈ strays
    · exact hstray hmem
    · have hzero := h.owners_offered hne hmem hres.offerable
      rw [hzero, if_neg]
      rintro hsame
      have hpos := owners_pos hcli
      rw [hsame, hzero] at hpos
      exact absurd hpos (Nat.lt_irrefl 0)
  have hcount := owners_store hcli cli' none
  simp only [hid, Option.toList_none, List.countP_nil, Nat.add_zero] at hcount
  have hone : (d.store sid cli' none).owners srcId = 1 := by
    have heq := hcount srcId
    rw [if_pos rfl, hnone] at heq
    omega
  refine ⟨?_, ?_, ?_⟩
  · intro id hid' hmem
    show (d.store sid cli' none).owners id ≤ 1
    have heq := hcount id
    have hle := h.once id hid' hmem
    by_cases hsame : srcId = id
    · rw [← hsame, hone]
    · rw [if_neg hsame] at heq
      omega
  · intro id hid' hmem hpos
    by_cases hsame : id = srcId
    · rw [hsame]
      exact Store.reserved_of_getNextFile hdb
    · have heq := hcount id
      rw [if_neg (Ne.symm hsame)] at heq
      have hpos' : 0 < (d.store sid cli' none).owners id := hpos
      have hbefore := h.reserved id hid' hmem (by omega)
      exact ⟨hres.sourcefiles ▸ hbefore.catalogued, (hres.others id hsame).symm ▸ hbefore.held⟩
  · intro id hst'
    show id ≠ 0 ∧ (d.store sid cli' none).owners id = 1
    have heq := hcount id
    by_cases hsame : id = srcId
    · rw [hsame]
      exact ⟨hne, hone⟩
    · have hbefore : 1 ∈ d.db.statuses id := by
        rw [← hres.others id hsame]
        exact hst'
      obtain ⟨hid', hbeforeOne⟩ := h.started id hbefore
      have hother : cli.originalFileId ≠ id := fun heq => hst (heq.symm ▸ hbefore)
      rw [if_neg (Ne.symm hsame), if_neg hother] at heq
      exact ⟨hid', by omega⟩

/-- A session gives its file back. -/
theorem Owned.abort (h : Owned strays d) {sid : SessionId} {cli cli' : ConnectedClient}
    (hcli : d.session sid = some cli) (idle : Idle cli cli') :
    Owned strays { d.store sid cli' none with db := d.db.reset cli.originalFileId } := by
  have hcount : ∀ id, id ≠ 0 → (d.store sid cli' none).owners id
      + (if cli.originalFileId = id then 1 else 0) = d.owners id :=
    fun _ hid => owners_idle hcli idle hid
  refine ⟨?_, ?_, ?_⟩
  · intro id hid hmem
    show (d.store sid cli' none).owners id ≤ 1
    have heq := hcount id hid
    have hle := h.once id hid hmem
    omega
  · intro id hid hmem hpos
    have hpos' : 0 < (d.store sid cli' none).owners id := hpos
    have heq := hcount id hid
    have hle := h.once id hid hmem
    have hne : cli.originalFileId ≠ id := by
      intro hsame
      rw [if_pos hsame] at heq
      omega
    exact (h.reserved id hid hmem (by omega)).step (.reset cli.originalFileId) hne
  · intro id hst
    have hst' : 1 ∈ (d.db.reset cli.originalFileId).statuses id := hst
    rw [Store.statuses_reset] at hst'
    split at hst'
    · obtain ⟨_, _, hzero⟩ := List.mem_map.mp hst'
      exact absurd hzero (by decide)
    · rename_i hne
      obtain ⟨hid, hone⟩ := h.started id hst'
      have heq := hcount id hid
      rw [if_neg (Ne.symm hne)] at heq
      exact ⟨hid, show (d.store sid cli' none).owners id = 1 by omega⟩

/-- The watcher starts nothing and takes nothing away. -/
theorem Owned.addFile (h : Owned strays d) (src dst : Option BasicFileInfo) (queue : Bool) :
    Owned strays { d with db := (d.db.addFile src dst queue).1 } := by
  refine ⟨h.once, ?_, ?_⟩
  · intro id hid hmem hpos
    exact (h.reserved id hid hmem hpos).step (.addFile src dst queue) not_false
  · intro id hst
    rcases d.db.mem_statuses_addFile src dst queue hst with hst | hst | hst
    · exact h.started id hst
    · exact absurd hst (by decide)
    · exact absurd hst (by decide)

/-- The mover finishes the entry it works on. -/
theorem Owned.finish (h : Owned strays d) {ftm : FileToMove} (hmoving : d.moving = some ftm)
    (hres : ftm.result.result ≠ EncodingResult.started.value) (outcome : MoveOutcome) :
    Owned strays { d with db := d.db.finishMove ftm outcome, moving := none } := by
  have hcount : ∀ id, ({ d with db := d.db.finishMove ftm outcome, moving := none } : Daemon).owners id
      + (if ftm.result.originalFileId = id then 1 else 0) = d.owners id := by
    intro id
    simp only [owners, entries, hmoving, Option.toList_none, Option.toList_some, List.nil_append,
      List.countP_append, List.countP_singleton, decide_eq_true_eq]
    omega
  refine ⟨?_, ?_, ?_⟩
  · intro id hid hmem
    have heq := hcount id
    have hle := h.once id hid hmem
    omega
  · intro id hid hmem hpos
    have heq := hcount id
    have hle := h.once id hid hmem
    have hne : id ≠ ftm.result.originalFileId := by
      intro hsame
      rw [if_pos hsame.symm] at heq
      omega
    have hres := h.reserved id hid hmem (by omega)
    refine ⟨?_, ?_⟩
    · show (d.db.finishMove ftm outcome).sourcefiles.HasKey id
      rw [Store.sourcefiles_finishMove]
      exact hres.catalogued
    · show Held ((d.db.finishMove ftm outcome).statuses id)
      rw [Store.statuses_finishMove, if_neg hne]
      exact hres.held
  · intro id hst
    have hst' : 1 ∈ (d.db.finishMove ftm outcome).statuses id := hst
    rw [Store.statuses_finishMove] at hst'
    split at hst'
    · obtain ⟨_, _, hone⟩ := List.mem_map.mp hst'
      exact absurd hone (movedStatus_ne_one hres outcome)
    · rename_i hne
      obtain ⟨hid, hone⟩ := h.started id hst'
      have heq := hcount id
      rw [if_neg (Ne.symm hne)] at heq
      exact ⟨hid, by omega⟩

/-- Every safe step keeps the invariant. -/
theorem Does.owned (hdoes : Does cfg d e d') (h : Owned strays d) (hu : TokensUnique d.connections)
    (hsafe : Safe strays d e) : Owned strays d' := by
  cases hdoes with
  | nothing => exact h
  | authenticate => exact h.authenticate hu hsafe
  | @keep e sid cli cli' hcli same =>
    have hcount := fun id => owners_store hcli cli' none id
    simp only [same.id, Option.toList_none, List.countP_nil, Nat.add_zero] at hcount
    refine h.of_eq rfl fun id _ => ?_
    have heq := hcount id
    omega
  | @forget sid limit src filter cli cli' hcli hin hout idle =>
    obtain ⟨hst, _⟩ := hsafe cli hcli hin hout
    refine h.of_le rfl (fun id hid _ => ?_) (fun id hid hid' => ?_)
    · have heq := owners_idle hcli idle hid
      omega
    · have heq := owners_idle hcli idle hid
      have hother : cli.originalFileId ≠ id := fun heq => hst (heq.symm ▸ hid')
      rw [if_neg hother] at heq
      omega
  | @reserve sid limit src filter cli cli' db' srcId file hcli hin hout hdb _ _ hid _ _ hstop =>
    obtain ⟨hst, hfile⟩ := hsafe cli hcli hin hout
    have hfound : (d.db.getNextFile limit filter).2 = some (srcId, file) := by rw [hdb]
    exact h.reserve hcli hst hdb (hfile hstop (srcId, file) hfound).2 hid
  | @strand sid limit src filter cli cli' db' srcId file hcli hin hout hstop hdb hread _ =>
    have hfound : (d.db.getNextFile limit filter).2 = some (srcId, file) := by rw [hdb]
    exact absurd ((hsafe cli hcli hin hout).2 hstop (srcId, file) hfound).1 hread
  | abort hcli _ idle => exact h.abort hcli idle
  | postFile hcli _ hands => exact h.of_eq rfl fun id hid => owners_handOver hcli hands hid
  | writeChunk hcli _ hands => exact h.of_eq rfl fun id hid => owners_handOver hcli hands hid
  | addFile => exact h.addFile _ _ _
  | @drop ftm rest hqueue hid =>
    have hcount : ∀ id, id ≠ 0 → ({ d with filesToMove := rest } : Daemon).owners id = d.owners id := by
      intro id hne
      have hnot : ¬ ftm.result.originalFileId = id := fun h => hne (h.symm.trans hid)
      simp only [owners, entries, hqueue, List.countP_append, List.countP_cons, hnot, decide_false,
        Bool.false_eq_true, if_false, Nat.add_zero]
    exact h.of_eq rfl hcount
  | @take ftm rest hmoving hqueue _ =>
    have hentries : ({ d with filesToMove := rest, moving := some ftm } : Daemon).entries
        = d.entries := by
      simp [entries, hmoving, hqueue]
    have hcount : ∀ id, ({ d with filesToMove := rest, moving := some ftm } : Daemon).owners id
        = d.owners id := by
      intro id
      simp only [owners, hentries]
    exact h.of_eq rfl fun id _ => hcount id
  | finish hmoving => exact h.finish hmoving (hsafe _ hmoving) _
  | stop => exact ⟨h.once, h.reserved, h.started⟩
  | restart =>
    refine h.of_le rfl (fun id _ _ => Nat.zero_le _) ?_
    intro id _ hst
    exact absurd hst (hsafe.restart id)

theorem owned_start : Owned strays (start .empty) where
  once := fun _ _ _ => Nat.zero_le _
  reserved := fun _ _ _ hpos => absurd hpos (Nat.lt_irrefl 0)
  started := fun _ hst => absurd hst List.not_mem_nil

/-- In every run of safe steps each started file has exactly one owner, whatever the ids are by which new
sessions go. -/
theorem started_owned (cfg : DaemonConfig) (strays : List Nat) {es : List DaemonEvent}
    (hsafe : (machine cfg).Along (Safe strays) (start .empty) es) :
    ∀ id, 1 ∈ ((machine cfg).run (start .empty) es).db.statuses id →
      ((machine cfg).run (start .empty) es).owners id = 1 := by
  have hinv := (machine cfg).invariant (P := fun d => Owned strays d ∧ TokensUnique d.connections)
    (fun d e h hs => ⟨(step_does cfg d e).owned h.1 h.2 hs, (step_does cfg d e).tokensUnique h.2⟩)
    ⟨owned_start, tokensUnique_start .empty⟩ hsafe
  exact fun id hst => (hinv.1.started id hst).2

/-- A session fetches a file, loses its connection, and comes back under another id. What the temporary is
made of does not matter then; and a session of somebody else goes by an id that no file has. -/
theorem started_owned_reconnect :
    let d := (machine gCfg).run (start .empty)
      [discovers "a.mov".toList [], .authenticate 1 ⟨0, .zero⟩ "t".toList, fetches 1,
       .authenticate 2 ⟨1, .zero⟩ "t".toList, .authenticate 3 ⟨7, .zero⟩ "u".toList]
    1 ∈ d.db.statuses 1 ∧ d.owners 1 = 1 :=
  ⟨by decide, started_owned gCfg [7] (by decide) 1 (by decide)⟩

/-- The file that was reserved for a session cannot be opened. It stays started, and nobody has it. -/
theorem started_stranded :
    let d := (machine gCfg).run (start .empty)
      [discovers "a.mov".toList [], .authenticate 1 ⟨0, .zero⟩ "t".toList,
       .getNextFile 1 .first ⟨fun _ => none, fun _ => some .zero⟩ ⟨[], 0⟩]
    1 ∈ d.db.statuses 1 ∧ d.owners 1 = 0 := by
  decide

end Daemon

end MediaArchiver
