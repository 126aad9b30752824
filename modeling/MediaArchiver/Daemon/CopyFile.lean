/-
# MediaArchiver.Daemon.CopyFile -- copying a file

`copyFile` reads the source into a buffer piece by piece, and writes the buffer to the target. It asks for
the whole buffer to be written, however much of it was read, and throws unless both counts are the same.
In the end it closes the target, and sets the times of what is open under the same number then: nothing.

As long as the counts are the same, the target has the bytes of the source up to the offset, and zeros behind
it (`Copying`). So the bytes are copied exactly if each write returns what the read before it returned; if the
system writes all that it is asked to, only a source of whole buffers is (`exact_iff`). The times are those
that the system itself sets (`copyFile_copies_iff`).
-/
import MediaArchiver.Daemon.Session
import MediaArchiver.Lib.Descriptors

namespace MediaArchiver

open Lib (Kernel filled)

universe u

variable {ι : Type u} [DecidableEq ι]

/-! ## The code -/

/-- How many bytes the system reads and writes in one turn of the loop, unless the call fails. -/
structure CopyTurn where
  read : Option Nat
  write : Option Nat

/-- `sizeof(buf)`. -/
def bufSize : Nat := 8192

/-- The answers of the system to one call of `copyFile`, and what nothing initialises. -/
structure CopyAnswers where
  openSrc : Option Nat
  fstat : Bool
  finfo : Times
  lseek : Bool
  openDst : Option Nat
  fallocate : Bool
  buf : Bytes
  length_buf : buf.length = bufSize
  turns : Nat → CopyTurn
  /-- The times that the system itself has given the target, by the time that it is closed. -/
  dstTimes : Times
  srcTimes : Times

/-- The loop. -/
def copyLoop (a : CopyAnswers) (s d : Int) :
    Nat → Nat → Bytes → Kernel ι UInt8 Times → Option (Kernel ι UInt8 Times × Except Exn Unit)
  | 0, _, _, _ => none
  | fuel + 1, i, buf, k =>
      let (k, buf, rs) := k.read s buf (a.turns i).read
      if rs = 0 then some (k, .ok ())
      else
        let (k, rs2) := k.write d buf (a.turns i).write
        if rs ≠ rs2 then
          some ((k.close s a.srcTimes).close d a.dstTimes,
            .error (.runtimeError "IO error during copying the file".toList))
        else copyLoop a s d fuel (i + 1) buf k

/-- `copyFile`, if the loop ends in so many turns. `file` says what the paths name. -/
def copyFile (file : Path → ι) (a : CopyAnswers) (src dst : Path) (mtime : Option Timespec) (fuel : Nat)
    (k : Kernel ι UInt8 Times) : Option (Kernel ι UInt8 Times × Except Exn Unit) :=
  let (k, s) := k.openRead (file src) a.openSrc
  if s < 0 then some (k, .error (.runtimeError "Could not open file".toList))
  else
    let finfo := (k.fstat s a.fstat).getD a.finfo
    let (k, fsize) := k.seekEnd s a.lseek
    if fsize = -1 then some (k, .error (.runtimeError "Could not seek in file".toList))
    else
      let k := k.seekSet s
      let ts : Times :=
        match mtime with
        | some t => ⟨t, t⟩
        | none => finfo
      let (k, d) := k.openWrite (file dst) a.openDst
      let k := k.fallocate d fsize.toNat a.fallocate
      match copyLoop a s d fuel 0 a.buf k with
      | some (k, .ok ()) =>
          let k := k.close d a.dstTimes
          let (k, _) := k.futimens d ts
          some (k.close s a.srcTimes, .ok ())
      | stopped => stopped

/-! ## The counts -/

namespace CopyAnswers

variable (a : CopyAnswers)

/-- How many bytes a read returns where so many are left. -/
def readCount (i left : Nat) : Nat := min (max 1 (min ((a.turns i).read.getD 0) bufSize)) left

/-- How many bytes a write of the whole buffer returns. -/
def writeCount (i : Nat) : Nat := min ((a.turns i).write.getD 0) bufSize

/-- How many bytes of a source of this length the first reads have returned. -/
def position (length : Nat) : Nat → Nat
  | 0 => 0
  | i + 1 => position length i + a.readCount i (length - position length i)

/-- Each write returns what the read before it returned. -/
def Exact (length : Nat) : Prop :=
  ∀ i, a.position length i < length → a.writeCount i = a.readCount i (length - a.position length i)

/-- No call fails, and the numbers of the two files are different ones. -/
structure NoFailure (s d : Nat) : Prop where
  openSrc : a.openSrc = some s
  fstat : a.fstat = true
  lseek : a.lseek = true
  openDst : a.openDst = some d
  other : d ≠ s
  fallocate : a.fallocate = true
  turns : ∀ i, ∃ r w, a.turns i = ⟨some r, some w⟩

variable {a} {length : Nat}

theorem readCount_le (i left : Nat) : a.readCount i left ≤ left := Nat.min_le_right _ _

theorem readCount_pos {left : Nat} (h : 0 < left) (i : Nat) : 0 < a.readCount i left := by
  unfold readCount
  omega

theorem position_le (length i : Nat) : a.position length i ≤ length := by
  induction i with
  | zero => exact Nat.zero_le _
  | succ i ih =>
    have hcount := a.readCount_le i (length - a.position length i)
    rw [position]
    omega

theorem position_mono (length : Nat) {i j : Nat} (h : i ≤ j) : a.position length i ≤ a.position length j := by
  induction j, h using Nat.le_induction with
  | base => exact Nat.le_refl _
  | succ j _ ih => exact ih.trans (Nat.le_add_right _ _)

/-- After a read that returns nothing there is nothing more to read. -/
theorem position_of_readCount_eq_zero {i j : Nat} (h : a.readCount i (length - a.position length i) = 0)
    (hj : i ≤ j) : a.position length j = length := by
  have hend : length - a.position length i = 0 := by
    by_contra hleft
    exact absurd h (a.readCount_pos (Nat.pos_of_ne_zero hleft) i).ne'
  have hmono := a.position_mono length hj
  have hle := a.position_le length j
  omega

/-- The source consists of whole buffers, and each read but the last one fills one. -/
def WholeBuffers (a : CopyAnswers) (length : Nat) : Prop :=
  bufSize ∣ length ∧ ∀ i, i < length / bufSize → bufSize ≤ (a.turns i).read.getD 0

/-- Where each of the first reads fills the buffer. -/
theorem position_of_full {n : Nat}
    (h : ∀ i, i < n → a.position length i = i * bufSize →
      a.readCount i (length - a.position length i) = bufSize) :
    a.position length n = n * bufSize := by
  induction n with
  | zero => rw [position, Nat.zero_mul]
  | succ n ih =>
    have hn := ih fun i hi => h i (by omega)
    rw [position, h n (Nat.lt_succ_self n) hn, hn, Nat.succ_mul]

/-- If the system writes all that it is asked to, only whole buffers can be copied. -/
theorem exact_iff (h : ∀ i, a.writeCount i = bufSize) : a.Exact length ↔ a.WholeBuffers length := by
  have hsize : bufSize = 8192 := rfl
  rw [WholeBuffers, hsize]
  rw [hsize] at h
  constructor
  · intro hexact
    have hfull : ∀ i, a.position length i < length →
        a.readCount i (length - a.position length i) = 8192 := fun i hi => (hexact i hi).symm.trans (h i)
    have hposition : ∀ n, n ≤ length / 8192 → a.position length n = n * 8192 := by
      intro n hn
      refine position_of_full fun i hi hposition => hfull i ?_
      rw [hsize] at hposition
      omega
    refine ⟨?_, fun i hi => ?_⟩
    · -- a piece that is left over does not fill the buffer
      by_contra hdvd
      have hlast := hposition (length / 8192) (Nat.le_refl _)
      have hcount := hfull (length / 8192) (by omega)
      have hle := a.readCount_le (length / 8192) (length - a.position length (length / 8192))
      omega
    · have hi' := hposition i (by omega)
      have hcount := hfull i (by omega)
      rw [readCount, hsize] at hcount
      omega
  · rintro ⟨hdvd, hreads⟩ i hi
    have hcount : ∀ i, i < length / 8192 → a.position length i = i * 8192 →
        a.readCount i (length - a.position length i) = 8192 := by
      intro i hi hposition
      have hread := hreads i hi
      rw [readCount, hsize]
      omega
    have hposition : ∀ n, n ≤ length / 8192 → a.position length n = n * 8192 := fun n hn =>
      position_of_full fun i hi => hcount i (by omega)
    have hlt : i < length / 8192 := by
      by_contra hge
      have hend := hposition (length / 8192) (Nat.le_refl _)
      have hmono := a.position_mono length (Nat.le_of_not_lt hge)
      omega
    rw [h i, hcount i hlt (hposition i hlt.le)]

end CopyAnswers

/-! ## One turn -/

/-- What holds while a file is copied: so many bytes were read and so many written. The source may be the
target, if it has only zeros. -/
structure Copying (k : Kernel ι UInt8 Times) (s d : Nat) (src dst : ι) (bytes : Bytes) (got put : Nat) :
    Prop where
  other : d ≠ s
  source : k.fds s = some ⟨src, got⟩
  target : k.fds d = some ⟨dst, put⟩
  source_content : (k.inode src).content = bytes
  target_content : (k.inode dst).content = filled bytes put
  marked : (k.inode dst).marked = true
  put_le : put ≤ bytes.length

namespace Copying

variable {k : Kernel ι UInt8 Times} {s d : Nat} {src dst : ι} {bytes buf : Bytes} {got put : Nat}

theorem read (h : Copying k s d src dst bytes got put) (buf : Bytes) (r : Nat) :
    ∃ k' data, k.read s buf (some r) = (k', data ++ buf.drop data.length, (data.length : Int))
      ∧ data <+: bytes.drop got
      ∧ data.length = min (max 1 (min r buf.length)) (bytes.length - got)
      ∧ Copying k' s d src dst bytes (got + data.length) put := by
  refine ⟨_, _, Kernel.read_open h.source rfl, ?_, ?_, ?_⟩
  · rw [h.source_content]
    exact List.take_prefix _ _
  · rw [List.length_take, h.source_content, List.length_drop]
  · refine ⟨h.other, Kernel.fds_setFd_self _ _ _, ?_, ?_, ?_, ?_, h.put_le⟩
    · rw [Kernel.fds_setFd_of_ne _ h.other]
      exact h.target
    · rw [Kernel.inode_setFd, Kernel.content_mark]
      exact h.source_content
    · rw [Kernel.inode_setFd, Kernel.content_mark]
      exact h.target_content
    · rw [Kernel.inode_setFd]
      exact Kernel.marked_mark h.marked src

theorem write (h : Copying k s d src dst bytes got put) {data : Bytes} (hdata : data <+: bytes.drop put)
    (rest : Bytes) (w : Nat) :
    ∃ k', k.write d (data ++ rest) (some w) = (k', ((min w (data ++ rest).length : Nat) : Int))
      ∧ (min w (data ++ rest).length = data.length →
        Copying k' s d src dst bytes got (put + data.length)) := by
  have hwrite := Kernel.write_open h.target (data ++ rest) w
  rw [List.length_take] at hwrite
  refine ⟨_, hwrite, fun hcount => ?_⟩
  have hwritten : (data ++ rest).take w = data := by
    have hprefix : (data ++ rest).take w <+: data ++ rest := List.take_prefix _ _
    have hlength : ((data ++ rest).take w).length = data.length := by rw [List.length_take, hcount]
    exact (List.prefix_of_prefix_length_le hprefix (List.prefix_append _ _) hlength.le).eq_of_length hlength
  rw [hwritten, hcount]
  have hle := hdata.length_le
  rw [List.length_drop] at hle
  have hput := h.put_le
  refine ⟨h.other, ?_, Kernel.fds_setFd_self _ _ _, ?_, ?_, ?_, by omega⟩
  · rw [Kernel.fds_setFd_of_ne _ (Ne.symm h.other)]
    exact h.source
  · rw [Kernel.inode_setFd]
    by_cases hino : src = dst
    · -- the same bytes are written again
      subst hino
      rw [Kernel.inode_put_self]
      dsimp only
      rw [h.source_content, Lib.overwrite_same hput hdata]
    · rw [Kernel.inode_put_of_ne _ hino]
      exact h.source_content
  · rw [Kernel.inode_setFd, Kernel.inode_put_self, ← Lib.overwrite_filled hput hdata, ← h.target_content]
  · rw [Kernel.inode_setFd, Kernel.inode_put_self]

end Copying

/-! ## The loop -/

section Loop

variable {k : Kernel ι UInt8 Times} {a : CopyAnswers} {s d : Nat} {src dst : ι} {bytes buf : Bytes}

/-- The loop goes through the whole source, unless a write does not return what the read before it did. -/
theorem copyLoop_ends (ha : ∀ i, ∃ r w, a.turns i = ⟨some r, some w⟩) {fuel i : Nat}
    (hfuel : bytes.length - a.position bytes.length i < fuel) (hbuf : buf.length = bufSize)
    (h : Copying k s d src dst bytes (a.position bytes.length i) (a.position bytes.length i)) :
    ∃ k' done, copyLoop a s d fuel i buf k = some (k', done)
      ∧ (done = .ok () ↔ ∀ j, i ≤ j → a.position bytes.length j < bytes.length →
        a.writeCount j = a.readCount j (bytes.length - a.position bytes.length j))
      ∧ (done = .ok () → Copying k' s d src dst bytes bytes.length bytes.length)
      ∧ (done ≠ .ok () → done = .error (.runtimeError "IO error during copying the file".toList)) := by
  induction fuel generalizing i k buf with
  | zero => exact absurd hfuel (Nat.not_lt_zero _)
  | succ fuel ih =>
    obtain ⟨r, w, hturn⟩ := ha i
    obtain ⟨k₁, data, hread, hdata, hlength, hcopying⟩ := h.read buf r
    have hcount : data.length = a.readCount i (bytes.length - a.position bytes.length i) := by
      rw [hlength, hbuf, CopyAnswers.readCount, hturn, Option.getD_some]
    have hposition : a.position bytes.length (i + 1) = a.position bytes.length i + data.length := by
      rw [CopyAnswers.position, hcount]
    have hle := a.position_le bytes.length i
    unfold copyLoop
    simp only [hturn, hread]
    by_cases hend : data.length = 0
    · -- the end of the source
      have hlast : ∀ j, i ≤ j → a.position bytes.length j = bytes.length := fun j hj =>
        a.position_of_readCount_eq_zero (hcount.symm.trans hend) hj
      rw [if_pos (by rw [hend]; rfl)]
      rw [hend, hlast i (Nat.le_refl i)] at hcopying
      refine ⟨k₁, .ok (), rfl, iff_of_true rfl fun j hj hlt => ?_, fun _ => hcopying, fun hne => absurd rfl hne⟩
      exact absurd (hlast j hj) (Nat.ne_of_lt hlt)
    · rw [if_neg (by exact_mod_cast hend)]
      have hbuf₁ : (data ++ buf.drop data.length).length = bufSize := by
        rw [List.length_append, List.length_drop, hlength, hbuf]
        unfold bufSize
        omega
      obtain ⟨k₂, hwrite, hnext⟩ := hcopying.write hdata (buf.drop data.length) w
      have hwritten : min w bufSize = a.writeCount i := by
        rw [CopyAnswers.writeCount, hturn, Option.getD_some]
      rw [hbuf₁, hwritten] at hwrite hnext
      simp only [hwrite]
      have hlt : a.position bytes.length i < bytes.length := by
        have hcountLe := a.readCount_le i (bytes.length - a.position bytes.length i)
        omega
      by_cases hsame : a.writeCount i = data.length
      · rw [if_neg (by simp [hsame])]
        have hcopying₂ := hnext hsame
        rw [← hposition] at hcopying₂
        obtain ⟨k', done, hloop, hdone, hcopied⟩ := ih (by omega) hbuf₁ hcopying₂
        refine ⟨k', done, hloop, hdone.trans ⟨fun hall j hj => ?_, fun hall j hj => hall j (by omega)⟩,
          hcopied⟩
        rcases Nat.eq_or_lt_of_le hj with rfl | hj
        · exact fun _ => hsame.trans hcount
        · exact hall j hj
      · rw [if_pos fun heq => hsame (by exact_mod_cast heq.symm)]
        refine ⟨_, _, rfl, iff_of_false nofun fun hall => hsame ?_, nofun, fun _ => rfl⟩
        exact (hall i (Nat.le_refl i) hlt).trans hcount.symm

/-- Once the loop has ended, more turns change nothing. -/
theorem copyLoop_mono {fuel fuel' i : Nat} {done : Kernel ι UInt8 Times × Except Exn Unit}
    (hle : fuel ≤ fuel') {s d : Int} (h : copyLoop a s d fuel i buf k = some done) :
    copyLoop a s d fuel' i buf k = some done := by
  induction fuel generalizing fuel' i buf k with
  | zero => cases h
  | succ fuel ih =>
    obtain ⟨fuel', rfl⟩ : ∃ n, fuel' = n + 1 := ⟨fuel' - 1, by omega⟩
    unfold copyLoop at h ⊢
    dsimp only at h ⊢
    split at h
    · rename_i hend
      rw [if_pos hend]
      exact h
    · rename_i hmore
      rw [if_neg hmore]
      split at h
      · rename_i hdiffer
        rw [if_pos hdiffer]
        exact h
      · rename_i hsame
        rw [if_neg hsame]
        exact ih (by omega) h

/-- Where reading and writing fail, both return the same, and the loop goes on for ever. -/
theorem copyLoop_failing (ha : ∀ i, a.turns i = ⟨none, none⟩) (s d : Int) (fuel i : Nat) (buf : Bytes)
    (k : Kernel ι UInt8 Times) : copyLoop a s d fuel i buf k = none := by
  induction fuel generalizing i buf k with
  | zero => rfl
  | succ fuel ih =>
    unfold copyLoop
    simp only [ha, Kernel.read_none, Kernel.write_none]
    rw [if_neg (by decide), if_neg (by decide)]
    exact ih (i + 1) buf k

end Loop

/-! ## Before the loop and after it -/

section File

variable {k : Kernel ι UInt8 Times} {a : CopyAnswers} {s d : Nat} {file : Path → ι} {src dst : Path}

/-- The times that the target is to have. -/
def wantedTimes (mtime : Option Timespec) (source : Times) : Times :=
  match mtime with
  | some t => ⟨t, t⟩
  | none => source

/-- The files when the loop begins. -/
def copyStart (k : Kernel ι UInt8 Times) (s d : Nat) (src dst : ι) : Kernel ι UInt8 Times :=
  ((k.setFd s (some ⟨src, 0⟩)).put dst
    { k.inode dst with
      content := List.replicate (k.inode src).content.length default
      marked := true }).setFd d (some ⟨dst, 0⟩)

/-- What is in the source then: if it is the target, it has been emptied. -/
def sourceBytes (k : Kernel ι UInt8 Times) (src dst : ι) : Bytes :=
  if dst = src then List.replicate (k.inode src).content.length default else (k.inode src).content

theorem length_sourceBytes (k : Kernel ι UInt8 Times) (src dst : ι) :
    (sourceBytes k src dst).length = (k.inode src).content.length := by
  unfold sourceBytes
  split
  · exact List.length_replicate
  · rfl

theorem sourceBytes_eq_iff (k : Kernel ι UInt8 Times) (src dst : ι) :
    sourceBytes k src dst = (k.inode src).content ↔ dst ≠ src ∨ ∀ b ∈ (k.inode src).content, b = 0 := by
  unfold sourceBytes
  split
  · rename_i hsame
    rw [eq_comm, List.eq_replicate_iff]
    exact ⟨fun h => Or.inr h.2, fun h => ⟨rfl, h.resolve_left fun hne => hne hsame⟩⟩
  · rename_i hother
    exact iff_of_true rfl (Or.inl hother)

theorem copying_start (k : Kernel ι UInt8 Times) {s d : Nat} (hother : d ≠ s) (src dst : ι) :
    Copying (copyStart k s d src dst) s d src dst (sourceBytes k src dst) 0 0 := by
  refine ⟨hother, ?_, Kernel.fds_setFd_self _ _ _, ?_, ?_, ?_, Nat.zero_le _⟩
  · rw [copyStart, Kernel.fds_setFd_of_ne _ (Ne.symm hother), Kernel.fds_put, Kernel.fds_setFd_self]
  · rw [copyStart, Kernel.inode_setFd]
    unfold sourceBytes
    split
    · rename_i hsame
      subst hsame
      rw [Kernel.inode_put_self]
    · rename_i hother
      rw [Kernel.inode_put_of_ne _ (Ne.symm hother), Kernel.inode_setFd]
  · rw [copyStart, Kernel.inode_setFd, Kernel.inode_put_self, Lib.filled_zero, length_sourceBytes]
  · rw [copyStart, Kernel.inode_setFd, Kernel.inode_put_self]

/-- The loop starts at the beginning of both files. -/
theorem copyFile_eq (h : a.NoFailure s d) (file : Path → ι) (src dst : Path) (mtime : Option Timespec)
    (fuel : Nat) (k : Kernel ι UInt8 Times) :
    copyFile file a src dst mtime fuel k
      = match copyLoop a s d fuel 0 a.buf (copyStart k s d (file src) (file dst)) with
        | some (k', .ok ()) =>
            some (((k'.close d a.dstTimes).futimens d
              (wantedTimes mtime (k.inode (file src)).times)).1.close s a.srcTimes, .ok ())
        | stopped => stopped := by
  have hopen : (k.setFd s (some ⟨file src, 0⟩)).fds s = some ⟨file src, 0⟩ := Kernel.fds_setFd_self _ _ _
  unfold copyFile
  simp only [h.openSrc, Kernel.openRead]
  rw [if_neg (by omega)]
  simp only [h.fstat, Kernel.fstat_open hopen, h.lseek, Kernel.seekEnd_open hopen, Kernel.inode_setFd]
  rw [if_neg (by omega)]
  have hdst : ∀ k : Kernel ι UInt8 Times, k.openWrite (file dst) (some d)
      = ((k.openWrite (file dst) (some d)).1, (d : Int)) := fun _ => rfl
  rw [Kernel.seekSet_open (Kernel.fds_setFd_self _ _ _), Kernel.setFd_setFd, Kernel.setFd_setFd, h.openDst,
    hdst]
  dsimp only
  rw [h.fallocate, Int.toNat_natCast, Kernel.fallocate_openWrite]
  rfl

/-- After the loop the times are set on a number that is not open any more. -/
theorem Copying.finish {src dst : ι} {bytes : Bytes} {got : Nat}
    (h : Copying k s d src dst bytes got bytes.length) (dstTimes srcTimes ts : Times) :
    let k' := ((k.close d dstTimes).futimens d ts).1.close s srcTimes
    (k'.inode dst).content = bytes ∧ (k'.inode dst).times = dstTimes := by
  dsimp only
  rw [Kernel.close_open h.target h.marked, Kernel.futimens_closed (Kernel.fds_setFd_self _ _ _)]
  dsimp only
  have hmarked : (((k.put dst { k.inode dst with times := dstTimes, marked := false }).setFd d none).inode
      dst).marked = false := by rw [Kernel.inode_setFd, Kernel.inode_put_self]
  rw [Kernel.inode_close_of_not_marked hmarked, Kernel.inode_setFd, Kernel.inode_put_self]
  dsimp only
  rw [h.target_content, Lib.filled_length]
  exact ⟨rfl, rfl⟩

/-- If no call fails, `copyFile` ends: without exception exactly if each write returns what the read before it
returned, and then with the bytes that the source had, and the times that the system set. -/
theorem copyFile_ends (h : a.NoFailure s d) (file : Path → ι) (src dst : Path) (mtime : Option Timespec)
    (k : Kernel ι UInt8 Times) :
    ∃ k' done, (∃ fuel, copyFile file a src dst mtime fuel k = some (k', done))
      ∧ (done = .ok () ↔ a.Exact (k.inode (file src)).content.length)
      ∧ (done = .ok () → (k'.inode (file dst)).content = sourceBytes k (file src) (file dst)
        ∧ (k'.inode (file dst)).times = a.dstTimes)
      ∧ (done ≠ .ok () → done = .error (.runtimeError "IO error during copying the file".toList)) := by
  have hstart : Copying (copyStart k s d (file src) (file dst)) s d (file src) (file dst)
      (sourceBytes k (file src) (file dst)) (a.position (sourceBytes k (file src) (file dst)).length 0)
      (a.position (sourceBytes k (file src) (file dst)).length 0) := copying_start k h.other _ _
  obtain ⟨k₁, done, hloop, hdone, hcopied, hthrown⟩ :=
    copyLoop_ends h.turns (Nat.lt_succ_of_le (Nat.sub_le _ _)) a.length_buf hstart
  have hcopy := copyFile_eq h file src dst mtime ((k.inode (file src)).content.length + 1) k
  rw [length_sourceBytes] at hloop hdone
  rw [hloop] at hcopy
  have hexact : done = .ok () ↔ a.Exact (k.inode (file src)).content.length :=
    hdone.trans ⟨fun hall i => hall i (Nat.zero_le i), fun hall i _ => hall i⟩
  cases done with
  | error e => exact ⟨k₁, _, ⟨_, hcopy⟩, hexact, nofun, hthrown⟩
  | ok _ => exact ⟨_, _, ⟨_, hcopy⟩, hexact, fun _ => (hcopied rfl).finish _ _ _, hthrown⟩

theorem copyFile_mono {fuel fuel' : Nat} (hle : fuel ≤ fuel') {mtime : Option Timespec}
    {k : Kernel ι UInt8 Times} {done : Kernel ι UInt8 Times × Except Exn Unit} (ha : a.NoFailure s d)
    (h : copyFile file a src dst mtime fuel k = some done) :
    copyFile file a src dst mtime fuel' k = some done := by
  rw [copyFile_eq ha] at h ⊢
  cases hloop : copyLoop a s d fuel 0 a.buf (copyStart k s d (file src) (file dst)) with
  | none =>
    rw [hloop] at h
    cases h
  | some ended =>
    rw [hloop] at h
    rw [copyLoop_mono hle hloop]
    exact h

/-- `copyFile`, if no call fails. -/
theorem copyFile_copies_iff (h : a.NoFailure s d) (file : Path → ι) (src dst : Path) (mtime : Option Timespec)
    (k : Kernel ι UInt8 Times) :
    let source := k.inode (file src)
    (∃ fuel done, copyFile file a src dst mtime fuel k = some done)
      ∧ ((∃ fuel k', copyFile file a src dst mtime fuel k = some (k', .ok ())
          ∧ (k'.inode (file dst)).content = source.content
          ∧ (k'.inode (file dst)).times = wantedTimes mtime source.times)
        ↔ a.Exact source.content.length
          ∧ (file dst ≠ file src ∨ ∀ b ∈ source.content, b = 0)
          ∧ a.dstTimes = wantedTimes mtime source.times)
      ∧ ((∀ i, a.writeCount i = bufSize) →
        (a.Exact source.content.length ↔ a.WholeBuffers source.content.length)) := by
  obtain ⟨k', done, ⟨fuel, hended⟩, hexact, hcopied, -⟩ := copyFile_ends h file src dst mtime k
  refine ⟨⟨fuel, _, hended⟩, ?_, CopyAnswers.exact_iff⟩
  rw [← hexact, ← sourceBytes_eq_iff]
  constructor
  · rintro ⟨fuel', k'', hok, hcontent, htimes⟩
    -- both runs end in the same way
    have hsame := (copyFile_mono (Nat.le_max_left fuel fuel') h hended).symm.trans
      (copyFile_mono (Nat.le_max_right fuel fuel') h hok)
    obtain ⟨rfl, rfl⟩ := Prod.mk.inj (Option.some.inj hsame)
    obtain ⟨hcontent', htimes'⟩ := hcopied rfl
    exact ⟨rfl, hcontent'.symm.trans hcontent, htimes'.symm.trans htimes⟩
  · rintro ⟨rfl, hbytes, htimes⟩
    obtain ⟨hcontent', htimes'⟩ := hcopied rfl
    exact ⟨fuel, k', hended, hcontent'.trans hbytes, htimes'.trans htimes⟩

end File

/-! ## One byte, and none -/

/-- The system reads and writes all that it is asked to. -/
def fullAnswers : CopyAnswers where
  openSrc := some 3
  fstat := true
  finfo := Times.zero
  lseek := true
  openDst := some 4
  fallocate := true
  buf := List.replicate bufSize 0
  length_buf := List.length_replicate
  turns := fun _ => ⟨some bufSize, some bufSize⟩
  dstTimes := Times.zero
  srcTimes := Times.zero

theorem noFailure_fullAnswers : fullAnswers.NoFailure 3 4 :=
  ⟨rfl, rfl, rfl, rfl, by decide, rfl, fun _ => ⟨bufSize, bufSize, rfl⟩⟩

/-- A file with these bytes, and an empty one. -/
def sourceAndTarget (bytes : Bytes) : Kernel Path UInt8 Times where
  inode path := if path = "source".toList then ⟨bytes, ⟨⟨1, 0⟩, ⟨2, 0⟩⟩, false⟩ else ⟨[], Times.zero, false⟩
  fds _ := none

theorem copyFile_copies_iff_noByte :
    ∃ fuel k', copyFile id fullAnswers "source".toList "target".toList (some ⟨0, 0⟩) fuel (sourceAndTarget [])
        = some (k', .ok ())
      ∧ (k'.inode "target".toList).content = []
      ∧ (k'.inode "target".toList).times = ⟨⟨0, 0⟩, ⟨0, 0⟩⟩ :=
  (copyFile_copies_iff noFailure_fullAnswers id "source".toList "target".toList (some ⟨0, 0⟩)
    (sourceAndTarget [])).2.1.mpr ⟨fun _ hi => absurd hi (Nat.not_lt_zero _), Or.inl (by decide), rfl⟩

/-- One byte is not copied. For no byte nothing is thrown, but the target does not get the times. -/
theorem copyFile_oneByte :
    fullAnswers.NoFailure 3 4
      ∧ (∃ fuel k', copyFile id fullAnswers "source".toList "target".toList none fuel (sourceAndTarget [7])
        = some (k', .error (.runtimeError "IO error during copying the file".toList)))
      ∧ (∀ fuel k', copyFile id fullAnswers "source".toList "target".toList none fuel (sourceAndTarget [7])
        ≠ some (k', .ok ()))
      ∧ ∃ fuel k', copyFile id fullAnswers "source".toList "target".toList none fuel (sourceAndTarget [])
          = some (k', .ok ())
        ∧ (k'.inode "target".toList).times ≠ ((sourceAndTarget []).inode "source".toList).times := by
  obtain ⟨k', done, ⟨fuel, hended⟩, hexact, -, hthrown⟩ := copyFile_ends noFailure_fullAnswers id
    "source".toList "target".toList none (sourceAndTarget [7])
  have hdiffer : ¬ fullAnswers.Exact 1 := fun hexact => absurd (hexact 0 (by decide)) (by decide)
  have herror := hthrown fun hok => hdiffer (hexact.mp hok)
  rw [herror] at hended
  refine ⟨noFailure_fullAnswers, ⟨fuel, k', hended⟩, fun fuel' k'' hok => ?_, ?_⟩
  · have hsame := (copyFile_mono (Nat.le_max_left fuel fuel') noFailure_fullAnswers hended).symm.trans
      (copyFile_mono (Nat.le_max_right fuel fuel') noFailure_fullAnswers hok)
    cases hsame
  · obtain ⟨k', done, ⟨fuel, hended⟩, hexact, hcopied, -⟩ := copyFile_ends noFailure_fullAnswers id
      "source".toList "target".toList none (sourceAndTarget [])
    have hok : done = .ok () := hexact.mpr fun i hi => absurd hi (Nat.not_lt_zero _)
    have htimes : (k'.inode "target".toList).times = Times.zero := (hcopied hok).2
    refine ⟨fuel, k', hok ▸ hended, ?_⟩
    rw [htimes]
    decide

end MediaArchiver
