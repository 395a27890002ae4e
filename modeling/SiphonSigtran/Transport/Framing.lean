import SiphonSigtran.Routing.Router
import SiphonSigtran.Transport.Registry

/-!
# Messages on M2PA links

An M2PA link carries the routing label of ITU: 14 bits of a point code, 4 of the selection code
and of the service indicator, 2 of the network indicator. A message that a relay routes has wider
fields. The codec of MTP3 is a parameter.
-/

namespace SiphonSigtran.Transport

open Routing

/-- A message in the terms of the codec. A point code is its value. -/
structure Mtp3Msu (ι : Type*) where
  si : ℕ
  ni : ι
  mp : ℕ
  opc : ℕ
  dpc : ℕ
  sls : ℕ
  data : List UInt8

/-- The codec of MTP3, with its network indicators. -/
structure Mtp3Codec (ι : Type*) where
  fromBits : ℕ → ι
  bits : ι → ℕ
  fromValue : Variant → ℕ → Option ℕ
  encode : Variant → Mtp3Msu ι → List UInt8
  decode : Variant → List UInt8 → Option (Mtp3Msu ι)

/-- The codec is exact for what the layout of ITU has room for, and reads back nothing wider. It
says nothing of the priority, which ITU does not have. -/
structure Mtp3Codec.Exact {ι : Type*} (codec : Mtp3Codec ι) : Prop where
  bits_lt : ∀ ni, codec.bits ni < 4
  bits_fromBits : ∀ n < 4, codec.bits (codec.fromBits n) = n
  fromValue : ∀ v, codec.fromValue .itu v = if v < 0x4000 then some v else none
  decode_encode : ∀ m : Mtp3Msu ι, m.opc < 0x4000 → m.dpc < 0x4000 → m.sls < 16 → m.si < 16 →
    ∃ mp, codec.decode .itu (codec.encode .itu m) = some { m with mp := mp }
  widths : ∀ raw m, codec.decode .itu raw = some m →
    m.opc < 0x4000 ∧ m.dpc < 0x4000 ∧ m.sls < 16 ∧ m.si < 16

section

variable {ι : Type*} (codec : Mtp3Codec ι)

/-- Whether a value is a point code of the variant. -/
def Mtp3Codec.fits (variant : Variant) (value : ℕ) : Bool :=
  (codec.fromValue variant value).isSome

/-- An ITU point code of the 14 bits of a value. -/
def ituPc (value : ℕ) : Option ℕ := codec.fromValue .itu (value &&& 0x3FFF)

/-- Encode a message for an M2PA link. -/
def mtp3Msu (msu : Msu) : Option (List UInt8) := do
  let opc ← ituPc codec msu.opc
  let dpc ← ituPc codec msu.dpc
  return codec.encode .itu
    ⟨msu.si, codec.fromBits msu.ni, msu.mp, opc, dpc, msu.sls, msu.payload⟩

/-- A message of an M2PA link, as the other end and a link that gives it back read it. -/
def extractM2pa (raw : List UInt8) : Option Msu :=
  (codec.decode .itu raw).map fun m =>
    ⟨m.opc, m.dpc, m.si, codec.bits m.ni, m.mp, m.sls, m.data⟩

/-- What is encoded of a message has its label and its payload. -/
def LabelKept (msu : Msu) : Prop :=
  ∀ raw, mtp3Msu codec msu = some raw →
    ∃ mp, extractM2pa codec raw = some { msu with mp := mp }

end

/-- The layout of ITU has room for the label. -/
def Msu.Fits (msu : Msu) : Prop :=
  msu.opc < 0x4000 ∧ msu.dpc < 0x4000 ∧ msu.sls < 16 ∧ msu.si < 16 ∧ msu.ni < 4

/-- The name of an adaptation in an error. -/
def Adaptation.debug : Adaptation → String
  | .m3ua => "M3ua"
  | .m2pa => "M2pa"
  | .sua => "Sua"

/-- The check of the links of a linkset, by the associations of the configuration. -/
def validateLinks (variant : Variant) (adaptation : String → Option Adaptation) (linkset : String) :
    List String → Except String Unit
  | [] => .ok ()
  | link :: links =>
    match adaptation link with
    | none => .error s!"linkset `{linkset}` references unknown association `{link}`"
    | some .m2pa =>
      if variant = .ansi then
        .error (s!"linkset `{linkset}` uses m2pa under the ansi variant, but m2pa framing " ++
          "is ITU 14-bit only; use m3ua associations for an ansi node")
      else validateLinks variant adaptation linkset links
    | some other =>
      .error (s!"linkset `{linkset}` link `{link}` is a {other.debug} association, " ++
        "a linkset carries m2pa links")

variable {ι : Type*} {codec : Mtp3Codec ι}

theorem ituPc_eq (h : codec.Exact) (value : ℕ) : ituPc codec value = some (value % 0x4000) := by
  have hmask : value &&& 0x3FFF = value % 0x4000 := Nat.and_two_pow_sub_one_eq_mod value 14
  unfold ituPc
  rw [hmask, h.fromValue, if_pos (Nat.mod_lt value (by decide))]

/-- No message is refused: of a point code the 14 bits are taken. -/
theorem mtp3Msu_eq (h : codec.Exact) (msu : Msu) :
    mtp3Msu codec msu = some (codec.encode .itu ⟨msu.si, codec.fromBits msu.ni, msu.mp,
      msu.opc % 0x4000, msu.dpc % 0x4000, msu.sls, msu.payload⟩) := by
  unfold mtp3Msu
  rw [ituPc_eq h, ituPc_eq h]
  rfl

theorem labelKept_of_fits (h : codec.Exact) {msu : Msu} (hfits : msu.Fits) :
    LabelKept codec msu := by
  obtain ⟨hopc, hdpc, hsls, hsi, hni⟩ := hfits
  intro raw hraw
  rw [mtp3Msu_eq h, Nat.mod_eq_of_lt hopc, Nat.mod_eq_of_lt hdpc] at hraw
  obtain rfl := Option.some.inj hraw
  obtain ⟨mp, hdecode⟩ := h.decode_encode
    ⟨msu.si, codec.fromBits msu.ni, msu.mp, msu.opc, msu.dpc, msu.sls, msu.payload⟩
    hopc hdpc hsls hsi
  refine ⟨mp, ?_⟩
  unfold extractM2pa
  rw [hdecode]
  simp [h.bits_fromBits msu.ni hni]

theorem fits_of_labelKept (h : codec.Exact) {msu : Msu} (hkept : LabelKept codec msu) :
    msu.Fits := by
  obtain ⟨mp, hback⟩ := hkept _ (mtp3Msu_eq h msu)
  unfold extractM2pa at hback
  obtain ⟨m, hdecode, heq⟩ := Option.map_eq_some_iff.mp hback
  obtain ⟨hopc, hdpc, hsls, hsi⟩ := h.widths _ m hdecode
  have hni := h.bits_lt m.ni
  obtain ⟨hopc', hdpc', hsi', hni', -, hsls', -⟩ := Msu.mk.inj heq
  rw [hopc'] at hopc
  rw [hdpc'] at hdpc
  rw [hsls'] at hsls
  rw [hsi'] at hsi
  rw [hni'] at hni
  exact ⟨hopc, hdpc, hsls, hsi, hni⟩

/-- Whatever a domain of ITU has a route to fits. -/
theorem dpc_lt_of_route (h : codec.Exact) {rt : TenantRuntime} (hitu : rt.variant = .itu)
    {dpc sls : ℕ} {via : Destination}
    (hroute : resolveDestination codec.fits rt dpc sls = some via) : dpc < 0x4000 := by
  by_contra hge
  have hfits : codec.fits rt.variant dpc = false := by
    unfold Mtp3Codec.fits
    rw [hitu, h.fromValue, if_neg hge]
    rfl
  unfold resolveDestination at hroute
  rw [hfits] at hroute
  cases hroute

/-- What an M2PA link is handed of a message has its label and its payload if and only if the layout
of ITU has room for the label. Of a message that is routed under ITU it has room for the
destination. -/
theorem label_kept_iff (h : codec.Exact) (msu : Msu) :
    (LabelKept codec msu ↔ msu.Fits) ∧
      ∀ rt : TenantRuntime, rt.variant = .itu → ∀ via,
        resolveDestination codec.fits rt msu.dpc msu.sls = some via → msu.dpc < 0x4000 :=
  ⟨⟨fits_of_labelKept h, labelKept_of_fits h⟩, fun _ hitu _ hroute => dpc_lt_of_route h hitu hroute⟩

/-- The widest point code of a variant. -/
def width : Variant → ℕ
  | .itu => 0x4000
  | .ansi | .china => 0x1000000

/-- The layout of ITU, with the service information octet before the label. -/
def ituCodec : Mtp3Codec (Fin 4) where
  fromBits n := Fin.ofNat 4 n
  bits := Fin.val
  fromValue variant value := if value < width variant then some value else none
  encode _ m :=
    let sio := m.ni.val * 64 + m.mp % 4 * 16 + m.si % 16
    let label := m.dpc % 0x4000 + m.opc % 0x4000 * 0x4000 + m.sls % 16 * 0x10000000
    .ofNat sio :: .ofNat label :: .ofNat (label / 0x100) :: .ofNat (label / 0x10000) ::
      .ofNat (label / 0x1000000) :: m.data
  decode _
    | sio :: a :: b :: c :: d :: data =>
      let label := a.toNat + b.toNat * 0x100 + c.toNat * 0x10000 + d.toNat * 0x1000000
      some
        { si := sio.toNat % 16
          ni := Fin.ofNat 4 (sio.toNat / 64)
          mp := sio.toNat / 16 % 4
          opc := label / 0x4000 % 0x4000
          dpc := label % 0x4000
          sls := label / 0x10000000 % 16
          data := data }
    | _ => none

theorem ituCodec_exact : ituCodec.Exact where
  bits_lt ni := ni.isLt
  bits_fromBits n hn := Nat.mod_eq_of_lt hn
  fromValue _ := rfl
  decode_encode := by
    intro m hopc hdpc hsls hsi
    refine ⟨m.mp % 4, ?_⟩
    have hni := m.ni.isLt
    simp only [ituCodec, UInt8.toNat_ofNat', Option.some.injEq, Mtp3Msu.mk.injEq, Fin.ext_iff,
      Fin.val_ofNat]
    refine ⟨?_, ?_, ?_, ?_, ?_, ?_, trivial⟩ <;> omega
  widths := by
    intro raw m h
    unfold ituCodec at h
    dsimp only at h
    split at h
    · obtain rfl := Option.some.inj h
      dsimp only
      omega
    · cases h

/-- A message under ITU that came in on another M2PA link. -/
theorem label_kept_transit :
    LabelKept ituCodec ⟨1000, 3000, 3, 2, 0, 5, [1]⟩ :=
  (label_kept_iff ituCodec_exact ⟨1000, 3000, 3, 2, 0, 5, [1]⟩).1.mpr (by unfold Msu.Fits; decide)

/-- A domain with a linkset of one M2PA link, and a route to a point code on it. -/
def oneRoute (variant : Variant) (dpc : ℕ) : TenantRuntime :=
  .build [] "default"
    { pointCode := 1000
      variant := variant
      applicationServers := []
      linksets := [⟨"west", ["a"]⟩]
      mtp3Routes := [⟨dpc, none, some "west", 1⟩]
      sccp := .empty
      contentRouting := none }

/-- A variant of 24 bits may have M2PA links, and a message for one of its point codes leaves for
another. And under ITU a message of an ASP may have an originating point code or a selection code
that an M2PA link has no room for. -/
theorem label_changed :
    (¬ ∀ (variant : Variant) (adaptation : String → Option Adaptation) (linkset : String)
      (links : List String) (rt : TenantRuntime) (msu : Msu), links ≠ [] →
        validateLinks variant adaptation linkset links = .ok () → rt.variant = variant →
          resolveDestination ituCodec.fits rt msu.dpc msu.sls = some (.linkset linkset) →
            LabelKept ituCodec msu) ∧
    ∀ msu ∈ [(⟨20000, 3000, 3, 2, 0, 5, [1]⟩ : Msu), ⟨1000, 3000, 3, 2, 0, 20, [1]⟩],
      resolveDestination ituCodec.fits (oneRoute .itu 3000) msu.dpc msu.sls =
        some (.linkset "west") ∧ ¬ LabelKept ituCodec msu := by
  constructor
  · intro h
    have hkept := h .china (fun _ => some .m2pa) "west" ["a"] (oneRoute .china 20000)
      ⟨1000, 20000, 3, 2, 0, 5, [1]⟩ (by decide) rfl rfl (by decide +kernel)
    have hfits := fits_of_labelKept ituCodec_exact hkept
    exact absurd hfits.2.1 (by decide)
  · intro msu hmsu
    simp only [List.mem_cons, List.not_mem_nil, or_false] at hmsu
    rcases hmsu with rfl | rfl
    · refine ⟨by decide +kernel, fun hkept => ?_⟩
      exact absurd (fits_of_labelKept ituCodec_exact hkept).1 (by decide)
    · refine ⟨by decide +kernel, fun hkept => ?_⟩
      exact absurd (fits_of_labelKept ituCodec_exact hkept).2.2.1 (by decide)

end SiphonSigtran.Transport
