import SiphonSigtran.Routing.Application

/-!
# Screening a message by its parts

The rules look at the first Invoke of a local operation in a message and at no other. An Invoke that
they would drop on its own gets past them behind one that they let pass.
-/

namespace SiphonSigtran.Routing

open Lib
open Tcap (Bytes Component Invoke)
open Transport (SccpMessage isSegment)

/-- The components of a message. -/
def TcapMessage.components : TcapMessage → List Component
  | .begins b => b.components.getD []
  | .continues c => c.components.getD []
  | .ends e => e.components.getD []
  | .aborts _ | .unidirectional _ => []

/-- Whether the rules look at messages of a type. -/
def TcapMessage.isScreened : TcapMessage → Bool
  | .begins _ | .continues _ => true
  | .ends _ | .aborts _ | .unidirectional _ => false

/-- A message with one component alone. -/
def TcapMessage.only (component : Component) : TcapMessage → TcapMessage
  | .begins b => .begins { b with components := some [component] }
  | .continues c => .continues { c with components := some [component] }
  | .ends e => .ends { e with components := some [component] }
  | m => m

/-- The Invokes of local operations in a message. -/
def TcapMessage.localInvokes (m : TcapMessage) : List (ℤ × Option Bytes) :=
  m.components.filterMap localInvoke

/-- An SCCP message with other data. -/
def withData (data : Bytes) : SccpMessage → SccpMessage
  | .udt m => .udt { m with data := data }
  | .xudt m => .xudt { m with data := data }
  | .ludt m => .ludt { m with data := data }
  | .udts m => .udts { m with data := data }
  | .xudts m => .xudts { m with data := data }
  | .ludts m => .ludts { m with data := data }

@[simp] theorem data_withData (data : Bytes) (m : SccpMessage) : (withData data m).data = data := by
  cases m <;> rfl

@[simp] theorem isSegment_withData (data : Bytes) (m : SccpMessage) :
    isSegment (withData data m) = isSegment m := by
  cases m <;> rfl

@[simp] theorem viewOf_withData (map : MapCodec) (data : Bytes) (m : SccpMessage)
    (invoke : ℤ × Option Bytes) : viewOf map (withData data m) invoke = viewOf map m invoke := by
  cases m <;> rfl

/-- Whether the rules drop what they see. -/
def ContentEngine.drops (e : ContentEngine) (view : MapView) : Bool :=
  match e.evaluate view with
  | some hit => hit.action = .screen ∨ hit.action = .unevaluable
  | none => false

/-- The rules drop a message. -/
def Drops (tcap : TcapCodec) (map : MapCodec) (e : ContentEngine) (sccp : SccpMessage) : Prop :=
  ∃ view msisdn, screen tcap map sccp = .view view msisdn ∧ e.drops view = true

section

variable {tcap : TcapCodec} {map : MapCodec} {e : ContentEngine} {sccp : SccpMessage}
  {m : TcapMessage}

/-- A message that the rules drop is dropped by the router, unless it is for another point, or for a
subsystem of this one by its number. -/
theorem Drops.routeFor (h : Drops tcap map e sccp) {fits : Variant → ℕ → Bool} {r : Router}
    {tenant : String} {rt : TenantRuntime} (hrt : r.lookup tenant = some rt)
    (he : rt.content = some e) {msg : Inbound} (hdpc : msg.dpc = rt.pointCode)
    (hcdpa : (msg.calledSsn.any rt.gtt.ownsSsn && msg.cdpa.isNone) = false) (sls : ℕ) :
    ∃ reason,
      (routeFor fits r tenant (msg.screened (screen tcap map sccp)) sls).1 = .drop reason := by
  obtain ⟨view, msisdn, hscreen, hdrops⟩ := h
  rw [hscreen]
  unfold ContentEngine.drops at hdrops
  unfold Routing.routeFor hitOf Inbound.screened
  simp only [hrt, hdpc, ne_eq, not_true_eq_false, ↓reduceIte, hcdpa, Bool.false_eq_true, he]
  split_ifs
  · exact ⟨_, Eq.refl _⟩
  · cases hhit : e.evaluate view with
    | none => simp [hhit] at hdrops
    | some hit =>
      simp only [hhit, Bool.decide_or, Bool.or_eq_true, decide_eq_true_eq] at hdrops
      rcases hdrops with haction | haction
      · simp only [haction, decisionFromAction]
        exact ⟨_, Eq.refl _⟩
      · simp only [haction, decisionFromAction]
        exact ⟨_, Eq.refl _⟩

/-- What the rules look at is the first Invoke of a local operation. -/
theorem firstInvoke_of_complete (hdecode : tcap.decodeDetailed sccp.data = .complete m)
    (hm : m.isScreened = true) : firstInvoke tcap sccp.data = .ok m.localInvokes.head? := by
  unfold firstInvoke TcapMessage.localInvokes
  rw [hdecode, List.head?_filterMap]
  cases m with
  | begins b => rfl
  | continues c => rfl
  | ends e => cases hm
  | aborts a => cases hm
  | unidirectional u => cases hm

theorem drops_iff (hwhole : isSegment sccp = false)
    (hdecode : tcap.decodeDetailed sccp.data = .complete m) (hm : m.isScreened = true) :
    Drops tcap map e sccp ↔
      ∃ inv, m.localInvokes.head? = some inv ∧ e.drops (viewOf map sccp inv).1 = true := by
  unfold Drops screen
  rw [hwhole, firstInvoke_of_complete hdecode hm]
  cases m.localInvokes.head? with
  | none => simp
  | some inv => simp

/-- A message with one Invoke is dropped by what the rules see of that Invoke. -/
theorem drops_only_iff (hwhole : isSegment sccp = false) (hm : m.isScreened = true)
    {c : Component} {inv : ℤ × Option Bytes} (hc : localInvoke c = some inv)
    (hcodec : tcap.decodeDetailed (tcap.encode (m.only c)) = .complete (m.only c)) :
    Drops tcap map e (withData (tcap.encode (m.only c)) sccp) ↔
      e.drops (viewOf map sccp inv).1 = true := by
  have honly : (m.only c).localInvokes = [inv] ∧ (m.only c).isScreened = true := by
    cases m with
    | begins b => simp [TcapMessage.localInvokes, TcapMessage.only, TcapMessage.components, hc,
        TcapMessage.isScreened]
    | continues b => simp [TcapMessage.localInvokes, TcapMessage.only, TcapMessage.components, hc,
        TcapMessage.isScreened]
    | ends e => cases hm
    | aborts a => cases hm
    | unidirectional u => cases hm
  rw [drops_iff (m := m.only c) (by simpa using hwhole) (by simpa using hcodec) honly.2, honly.1]
  simp

end

/-- A message is dropped with every Invoke of a local operation that the rules would drop on its
own, exactly where no such Invoke follows a first one that they let pass. -/
theorem dropped_by_parts_iff (tcap : TcapCodec) (map : MapCodec) (e : ContentEngine)
    (sccp : SccpMessage) (m : TcapMessage) (hwhole : isSegment sccp = false)
    (hdecode : tcap.decodeDetailed sccp.data = .complete m) (hm : m.isScreened = true)
    (hcodec : ∀ c ∈ m.components, (localInvoke c).isSome →
      tcap.decodeDetailed (tcap.encode (m.only c)) = .complete (m.only c)) :
    (∀ c ∈ m.components, (localInvoke c).isSome →
      Drops tcap map e (withData (tcap.encode (m.only c)) sccp) → Drops tcap map e sccp) ↔
      ∀ first rest, m.localInvokes = first :: rest →
        ∀ inv ∈ rest, e.drops (viewOf map sccp inv).1 = true →
          e.drops (viewOf map sccp first).1 = true := by
  constructor
  · intro h first rest hinvokes inv hinv hdrops
    have hmem : inv ∈ m.localInvokes := by
      rw [hinvokes]
      exact List.mem_cons_of_mem first hinv
    obtain ⟨c, hc, hlocal⟩ := List.mem_filterMap.mp hmem
    have hsome : (localInvoke c).isSome := by rw [hlocal, Option.isSome_some]
    have hwholeDrops := h c hc hsome
      ((drops_only_iff hwhole hm hlocal (hcodec c hc hsome)).mpr hdrops)
    obtain ⟨first', hfirst, hdropsFirst⟩ := (drops_iff hwhole hdecode hm).mp hwholeDrops
    rw [hinvokes, List.head?_cons, Option.some.injEq] at hfirst
    rw [hfirst]
    exact hdropsFirst
  · intro h c hc hsome hdrops
    obtain ⟨inv, hlocal⟩ := Option.isSome_iff_exists.mp hsome
    have hinv := (drops_only_iff hwhole hm hlocal (hcodec c hc hsome)).mp hdrops
    have hmem : inv ∈ m.localInvokes := List.mem_filterMap.mpr ⟨c, hc, hlocal⟩
    rw [drops_iff hwhole hdecode hm]
    cases hinvokes : m.localInvokes with
    | nil => simp [hinvokes] at hmem
    | cons first rest =>
      refine ⟨first, rfl, ?_⟩
      rw [hinvokes] at hmem
      rcases List.mem_cons.mp hmem with rfl | hrest
      · exact hinv
      · exact h first rest hinvokes inv hrest hinv

/-! ## A location update behind a query -/

/-- The codec of TCAP on some messages and their octets. -/
def tcapOf (table : List (TcapMessage × Bytes)) : TcapCodec where
  decodeDetailed bytes := match table.find? fun p => p.2 = bytes with
    | some p => .complete p.1
    | none => .problem ⟨none, none⟩
  encode m := match table.find? fun p => p.1 = m with
    | some p => p.2
    | none => []
  dialoguePdu _ := none

/-- Arguments of which none decodes. -/
def noArguments : MapCodec where
  updateLocation _ := none
  cancelLocation _ := none
  purgeMs _ := none
  sendAuthenticationInfo _ := none
  readyForSm _ := none
  provideSubscriberInfo _ := none
  moForwardSm _ := none
  routingInfoForSm _ := none
  reportSmDeliveryStatus _ := none

/-- A domain that lets no location update through. -/
def noUpdates : ContentEngine :=
  .compile ⟨[], [],
    [⟨"no-updates", ⟨some ["update-location"], none, none, none, none⟩, ⟨none, none, some true⟩⟩]⟩

def queryInvoke : Component := .invoke ⟨1, none, .localCode OpCode.sendRoutingInfoForSm, none⟩

def updateInvoke : Component := .invoke ⟨2, none, .localCode OpCode.updateLocation, none⟩

def opening (components : List Component) : TcapMessage :=
  .begins ⟨[0x11, 0x22], none, some components⟩

def queryOctets : Bytes := [0xA1, 6, 2, 1, 1, 2, 1, 45]

def updateOctets : Bytes := [0xA1, 6, 2, 1, 2, 2, 1, 2]

/-- The octets of a Begin with some component octets. -/
def openingOctets (components : Bytes) : Bytes :=
  [0x62, UInt8.ofNat (components.length + 6), 0x48, 2, 0x11, 0x22, 0x6C,
    UInt8.ofNat components.length] ++ components

def openings : TcapCodec :=
  tcapOf
    [(opening [queryInvoke], openingOctets queryOctets),
      (opening [updateInvoke], openingOctets updateOctets),
      (opening [queryInvoke, updateInvoke], openingOctets (queryOctets ++ updateOctets)),
      (opening [updateInvoke, queryInvoke], openingOctets (updateOctets ++ queryOctets))]

/-- A UDT from a gateway to a register. -/
def carrying (data : Bytes) : SccpMessage :=
  .udt (.new (.withGt (.gt0010 0 "155") (some 6)) (.withGt (.gt0010 0 "160") (some 8)) data)

/-- An update in front of a query is dropped with it. -/
theorem dropped_by_parts_of_update :
    openings.decodeDetailed (openingOctets (updateOctets ++ queryOctets)) =
        .complete (opening [updateInvoke, queryInvoke]) ∧
      ∀ c ∈ [updateInvoke, queryInvoke], (localInvoke c).isSome →
        Drops openings noArguments noUpdates
            (withData (openings.encode ((opening [updateInvoke, queryInvoke]).only c))
              (carrying (openingOctets (updateOctets ++ queryOctets)))) →
          Drops openings noArguments noUpdates
            (carrying (openingOctets (updateOctets ++ queryOctets))) := by
  refine ⟨by decide +kernel, ?_⟩
  apply (dropped_by_parts_iff openings noArguments noUpdates
    (carrying (openingOctets (updateOctets ++ queryOctets))) (opening [updateInvoke, queryInvoke])
    (by decide +kernel) (by decide +kernel) (by decide +kernel) (by decide +kernel)).mpr
  intro first rest hinvokes inv _ _
  have hfirst : (opening [updateInvoke, queryInvoke]).localInvokes =
      [(OpCode.updateLocation, none), (OpCode.sendRoutingInfoForSm, none)] := by decide +kernel
  rw [hfirst] at hinvokes
  obtain ⟨rfl, -⟩ := List.cons.inj hinvokes
  decide +kernel

/-- Behind a query the same update gets past the rules. -/
theorem update_passes_behind_query :
    Drops openings noArguments noUpdates
        (withData (openings.encode ((opening [queryInvoke, updateInvoke]).only updateInvoke))
          (carrying (openingOctets (queryOctets ++ updateOctets)))) ∧
      openings.decodeDetailed (openingOctets (queryOctets ++ updateOctets)) =
        .complete (opening [queryInvoke, updateInvoke]) ∧
      ¬ Drops openings noArguments noUpdates
        (carrying (openingOctets (queryOctets ++ updateOctets))) := by
  have hwhole : openings.decodeDetailed (openingOctets (queryOctets ++ updateOctets)) =
      .complete (opening [queryInvoke, updateInvoke]) := by decide +kernel
  have hlocal : localInvoke updateInvoke = some (OpCode.updateLocation, none) := by decide +kernel
  refine ⟨?_, hwhole, ?_⟩
  · apply (drops_only_iff (by decide +kernel) (by decide +kernel) hlocal (by decide +kernel)).mpr
    decide +kernel
  · rw [drops_iff (m := opening [queryInvoke, updateInvoke]) (by decide +kernel) hwhole
      (by decide +kernel)]
    rintro ⟨inv, hinv, hdrops⟩
    have hfirst : (opening [queryInvoke, updateInvoke]).localInvokes.head? =
        some (OpCode.sendRoutingInfoForSm, none) := by decide +kernel
    rw [hfirst, Option.some.injEq] at hinv
    subst hinv
    exact absurd hdrops (by decide +kernel)

end SiphonSigtran.Routing
