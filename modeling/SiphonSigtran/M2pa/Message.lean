import Mathlib.Algebra.Group.Nat.Defs
import Mathlib.Data.Nat.Notation
import Mathlib.Tactic.SplitIfs

/-!
# M2PA messages

The messages a link exchanges with its peer (RFC 4165 2.1 to 2.3), and the codec
that frames them. The codec is a third-party package: a link is a function of
any `Codec`, of which it only relies on decoding undoing encoding for what it
sends itself. `wire` is the layout that the peer of the test suite reads and
writes by hand.
-/

namespace SiphonSigtran.M2pa

/-- An MSU: SIO and SIF. -/
abbrev Msu := List UInt8
abbrev Frame := List UInt8

/-- Sequence numbers are 24 bits (RFC 4165 2.2). -/
def seqMask : ℕ := 0x00FFFFFF

/-- The state a Link Status message carries. -/
inductive Status
  | alignment | provingNormal | provingEmergency | ready | processorOutage
  | processorRecovered | busy | busyEnded | outOfService
  deriving DecidableEq, Repr

structure UserDataMessage where
  priority : ℕ
  msu : Msu
  deriving DecidableEq, Repr

def UserDataMessage.empty : UserDataMessage := ⟨0, []⟩
def UserDataMessage.isEmpty (m : UserDataMessage) : Bool := m.msu.isEmpty

inductive M2paMessage
  | linkStatus (bsn fsn : ℕ) (state : Status)
  | userData (bsn fsn : ℕ) (message : UserDataMessage)
  deriving DecidableEq, Repr

def M2paMessage.bsn : M2paMessage → ℕ
  | .linkStatus bsn _ _ => bsn
  | .userData bsn _ _ => bsn

/-- What a link of the ITU variant sends: 24-bit numbers, and the priority spare. -/
def M2paMessage.Sendable : M2paMessage → Prop
  | .linkStatus bsn fsn _ => bsn ≤ seqMask ∧ fsn ≤ seqMask
  | .userData bsn fsn message => bsn ≤ seqMask ∧ fsn ≤ seqMask ∧ message.priority = 0

/-- Framing. Encoding may refuse a message (one too long for its length field). -/
structure Codec where
  encode : M2paMessage → Option Frame
  decode : Frame → Option M2paMessage
  decode_encode : ∀ {m f}, m.Sendable → encode m = some f → decode f = some m

/-! ## The layout of RFC 4165 -/

def Status.code : Status → UInt8
  | .alignment => 1
  | .provingNormal => 2
  | .provingEmergency => 3
  | .ready => 4
  | .processorOutage => 5
  | .processorRecovered => 6
  | .busy => 7
  | .busyEnded => 8
  | .outOfService => 9

def Status.ofCode (n : UInt8) : Option Status :=
  if n = 1 then some .alignment
  else if n = 2 then some .provingNormal
  else if n = 3 then some .provingEmergency
  else if n = 4 then some .ready
  else if n = 5 then some .processorOutage
  else if n = 6 then some .processorRecovered
  else if n = 7 then some .busy
  else if n = 8 then some .busyEnded
  else if n = 9 then some .outOfService
  else none

theorem Status.ofCode_code (s : Status) : Status.ofCode s.code = some s := by
  cases s <;> rfl

/-- Big-endian octets of a 32-bit value. -/
def beBytes (n : ℕ) : List UInt8 :=
  [UInt8.ofNat (n / 2 ^ 24), UInt8.ofNat (n / 2 ^ 16), UInt8.ofNat (n / 2 ^ 8), UInt8.ofNat n]

/-- A 24-bit number from its octets. -/
def be24 (b2 b1 b0 : UInt8) : ℕ := b2.toNat * 2 ^ 16 + b1.toNat * 2 ^ 8 + b0.toNat

theorem be24_beBytes {n : ℕ} (hn : n ≤ seqMask) :
    be24 (UInt8.ofNat (n / 2 ^ 16)) (UInt8.ofNat (n / 2 ^ 8)) (UInt8.ofNat n) = n := by
  have hlt : n < 2 ^ 24 := by
    unfold seqMask at hn
    omega
  simp only [be24, UInt8.toNat_ofNat']
  omega

/-- Version 1, spare, class 11, type, length; unused, BSN, unused, FSN. -/
def header (messageType : UInt8) (bsn fsn body : ℕ) : Frame :=
  [0x01, 0x00, 0x0b, messageType] ++ beBytes (16 + body) ++ beBytes bsn ++ beBytes fsn

def linkStatusFrame (state : Status) (bsn fsn : ℕ) : Frame :=
  header 2 bsn fsn 4 ++ [0, 0, 0, state.code]

/-- The priority octet and the MSU, or nothing at all for an acknowledgement. -/
def userDataFrame (bsn fsn : ℕ) (msu : Msu) : Frame :=
  if msu.isEmpty then header 1 bsn fsn 0
  else header 1 bsn fsn (1 + msu.length) ++ 0x00 :: msu

def wireDecode : Frame → Option M2paMessage
  | 1 :: 0 :: 11 :: messageType :: _ :: _ :: _ :: _ ::
      _ :: b2 :: b1 :: b0 :: _ :: f2 :: f1 :: f0 :: body =>
    if messageType = 1 then
      match body with
      | [] => some (.userData (be24 b2 b1 b0) (be24 f2 f1 f0) .empty)
      | _ :: msu => some (.userData (be24 b2 b1 b0) (be24 f2 f1 f0) ⟨0, msu⟩)
    else if messageType = 2 then
      match body with
      | [_, _, _, code] => (Status.ofCode code).map (.linkStatus (be24 b2 b1 b0) (be24 f2 f1 f0))
      | _ => none
    else none
  | _ => none

def wireEncode : M2paMessage → Option Frame
  | .linkStatus bsn fsn state => some (linkStatusFrame state bsn fsn)
  | .userData bsn fsn message => some (userDataFrame bsn fsn message.msu)

theorem wireDecode_wireEncode {m : M2paMessage} {f : Frame} (hm : m.Sendable)
    (hf : wireEncode m = some f) : wireDecode f = some m := by
  cases m with
  | linkStatus bsn fsn state =>
    obtain ⟨hb, hs⟩ := hm
    obtain rfl := Option.some.inj hf
    have hcodes := be24_beBytes hb
    have hnumbers := be24_beBytes hs
    simp_all [linkStatusFrame, header, beBytes, wireDecode, Status.ofCode_code]
  | userData bsn fsn message =>
    obtain ⟨hb, hs, hp⟩ := hm
    obtain rfl := Option.some.inj hf
    obtain ⟨priority, msu⟩ := message
    obtain rfl : priority = 0 := hp
    have hcodes := be24_beBytes hb
    have hnumbers := be24_beBytes hs
    cases msu with
    | nil => simp_all [userDataFrame, header, beBytes, wireDecode, UserDataMessage.empty]
    | cons sio sif => simp_all [userDataFrame, header, beBytes, wireDecode]

/-- The layout the test suite's peer reads and writes. -/
def wire : Codec where
  encode := wireEncode
  decode := wireDecode
  decode_encode := wireDecode_wireEncode

end SiphonSigtran.M2pa
