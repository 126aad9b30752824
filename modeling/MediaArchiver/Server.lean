/-
# MediaArchiver.Server -- the data that client and daemon exchange

The records of the RPC interface and the exceptions its implementations throw. A `std::string` is a
list of characters, one for each byte. Sizes are natural numbers, except `EncodingResultInfo`'s
`fileLength`: the daemon compares it with a stream position that may be minus one, and that
comparison is made in 64-bit unsigned arithmetic, so the field keeps its 64 bits.
-/
import Mathlib.Algebra.Group.Int.Defs
import Mathlib.Algebra.Group.Nat.Defs
import Mathlib.Data.List.Basic

namespace MediaArchiver

/-- A `std::string`. -/
abbrev Text := List Char

/-- A file name with its directories. -/
abbrev Path := Text

/-- Bytes of a file or of a message. -/
abbrev Bytes := List UInt8

/-- What a client can process. -/
structure MediaFileRequirements where
  encoderType : Text
  maxFileSize : Nat
deriving DecidableEq

/-- How a file is to be encoded, and how long it is. -/
structure MediaEncoderSettings where
  fileLength : Nat
  encoderType : Text
  fileExtension : Text
  finalExtension : Text
  commandLineParameters : Text
deriving DecidableEq

/-- The named values of an encoding result, which double as queue status. -/
inductive EncodingResult where
  | started
  | ok
  | notStarted
  | retriableError
  | serverIOError
  | unknownError
  | permanentError
deriving DecidableEq

/-- The value on the wire and in the database. -/
def EncodingResult.value : EncodingResult → Int8
  | .started => 1
  | .ok => 5
  | .notStarted => 0
  | .retriableError => -1
  | .serverIOError => -9
  | .unknownError => -50
  | .permanentError => -100

/-- The result of an encoding as a client posts it. Nothing restricts `result` to the named values. -/
structure EncodingResultInfo where
  result : Int8
  fileLength : UInt64
  error : Text
deriving DecidableEq

/-- The result of an encoding that succeeded with something to upload. -/
def EncodingResultInfo.Uploads (r : EncodingResultInfo) : Prop :=
  r.result = EncodingResult.ok.value ∧ 0 < r.fileLength

instance (r : EncodingResultInfo) : Decidable r.Uploads := inferInstanceAs (Decidable (_ ∧ _))

/-- A `std::vector<char>`; its size is a signed 64-bit number at most. -/
structure DataChunk where
  bytes : Bytes
  size_lt : bytes.length < 2 ^ 63
deriving DecidableEq

/-- Number of bytes in a chunk. -/
def DataChunk.size (c : DataChunk) : Nat := c.bytes.length

/-- The exceptions thrown by the code, its library and the RPC library, with the text `what()` returns.
The last three are `rpc::rpc_error`, `rpc::timeout` and `rpc::system_error`; none of the three derives
from another. -/
inductive Exn where
  | runtimeError (what : Text)
  | ioError (what : Text)
  | networkError (what : Text)
  | outOfRange (what : Text)
  | lengthError (what : Text)
  | badAlloc (what : Text)
  | rpcError (what : Text)
  | rpcTimeout (what : Text)
  | systemError (what : Text)
deriving DecidableEq

/-- `what()`. -/
def Exn.what : Exn → Text
  | .runtimeError w => w
  | .ioError w => w
  | .networkError w => w
  | .outOfRange w => w
  | .lengthError w => w
  | .badAlloc w => w
  | .rpcError w => w
  | .rpcTimeout w => w
  | .systemError w => w

/-! ## Making a chunk -/

namespace DataChunk

/-- `DataChunk chunk(n)` before its bytes are set: no vector holds `2 ^ 63` bytes, and unless it is
empty there must be memory for it. -/
def allocate (memory : Bool) (n : Nat) : Except Exn Unit :=
  if 2 ^ 63 ≤ n then
    .error (.lengthError "cannot create std::vector larger than max_size()".toList)
  else if n ≠ 0 ∧ memory = false then .error (.badAlloc "std::bad_alloc".toList)
  else .ok ()

/-- The chunk is made. -/
def Allocates (memory : Bool) (n : Nat) : Prop := n < 2 ^ 63 ∧ (n = 0 ∨ memory = true)

instance (memory : Bool) (n : Nat) : Decidable (Allocates memory n) :=
  inferInstanceAs (Decidable (_ ∧ _))

variable {memory : Bool} {n : Nat}

theorem allocate_of_allocates (h : Allocates memory n) : allocate memory n = .ok () := by
  obtain ⟨hsize, hmemory⟩ := h
  rw [allocate, if_neg (Nat.not_le.mpr hsize), if_neg]
  rintro ⟨hne, hnone⟩
  rcases hmemory with hzero | hsome
  · exact hne hzero
  · rw [hsome] at hnone
    cases hnone

theorem allocate_of_not_allocates (h : ¬ Allocates memory n) : ∃ e, allocate memory n = .error e := by
  unfold allocate
  split
  · exact ⟨_, rfl⟩
  · rename_i hsize
    rw [if_pos]
    · exact ⟨_, rfl⟩
    · refine ⟨fun hzero => h ⟨Nat.not_le.mp hsize, Or.inl hzero⟩, ?_⟩
      rw [← Bool.not_eq_true]
      exact fun hmemory => h ⟨Nat.not_le.mp hsize, Or.inr hmemory⟩

theorem allocate_eq_ok : allocate memory n = .ok () ↔ Allocates memory n := by
  refine ⟨fun hok => ?_, allocate_of_allocates⟩
  by_contra hnot
  obtain ⟨e, herror⟩ := allocate_of_not_allocates hnot
  cases hok.symm.trans herror

/-- Where there is memory, only the size counts. -/
@[simp] theorem allocates_true : Allocates true n ↔ n < 2 ^ 63 :=
  ⟨And.left, fun hsize => ⟨hsize, Or.inr rfl⟩⟩

end DataChunk

end MediaArchiver
