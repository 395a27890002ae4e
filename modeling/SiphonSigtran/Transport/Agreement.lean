import SiphonSigtran.Transport.AspSide
import SiphonSigtran.Transport.AspmTells

/-!
# An ASP and its gateway

Two nodes share an association. One is an ASP of it and asks to become active, the other is the
gateway, and both keep the state of the ASP. Messages are on their way between them in order,
associations are lost at either end at different times, and an association may be restarted by the
ASP without the gateway losing it.
-/

namespace SiphonSigtran.Transport

open Lib

/-- How a message of ASP state maintenance reads at the ASP. An Error changes nothing there. -/
def Message.said : Message → Option AspSide.Said
  | .upAck => some (.upAck [])
  | .downAck => some (.downAck [])
  | .activeAck _ contexts => some (.activeAck contexts)
  | .inactiveAck contexts => some (.inactiveAck contexts)
  | .notify _ status _ context => some (.notify (some (some status)) [context])
  | .error _ _ => none

def Input.isUp : Input → Bool
  | .up _ _ => true
  | _ => false

namespace AspSide

open Aspm

/-- The association, the ASPs and servers of each of the two nodes, and which of the ASPs of the
gateway the other node is. -/
structure Span where
  slot : Slot
  asp : Layout
  gateway : Layout
  far : ℕ

/-- Whether the ASP has an association, and the gateway serves it: it may not serve it yet, or not
any more. -/
inductive Phase
  | idle
  | waiting
  | joined
  | broken
  deriving DecidableEq, Repr

/-- Both nodes, and what is on its way. The gateway may still serve an association that the ASP has
lost, and is then stale. -/
structure Joint where
  asking : Asking
  asp : Aspm
  gateway : Aspm
  phase : Phase
  stale : Bool
  toGateway : List Input
  toAsp : List Message

inductive Happens
  | connect (now : ℕ)
  | serve
  | restart
  | aspLoses
  | gatewayLoses
  | atGateway
  | atAsp (active : ℕ → Bool) (now : ℕ)
  | clock (now : ℕ)
  | late (act : Act)
  | elsewhere (input : Input)
  | beside (input : Input)

/-- What ASP state maintenance is told of by what the ASP side does. -/
def reports (acts : List Act) : List Input :=
  acts.filterMap fun
    | .submit input => some input
    | _ => none

namespace Joint

def new : Joint := ⟨⟨false, [], none⟩, Aspm.new, Aspm.new, .idle, false, [], []⟩

end Joint

namespace Span

variable (c : Span)

/-- How a request of the ASP reads at the gateway. -/
def request : Act → Option Input
  | .aspUp identifier => some (.up c.far identifier)
  | .aspActive mode context => some (.active c.far (some mode) (some [context]))
  | _ => none

/-- The ASP side does what it was found to do. -/
def does (t : Joint) (r : Asking × List Act) : Joint :=
  { t with
    asking := r.1
    asp := (reports r.2).foldl (fun m input => (m.handle c.asp input).1) t.asp
    toGateway := t.toGateway ++ r.2.filterMap c.request }

/-- The gateway handles an input. What it sends the ASP goes on the association that both have. -/
def hears (t : Joint) (input : Input) : Joint :=
  let (gateway, out) := t.gateway.handle c.gateway input
  { t with
    gateway := gateway
    toAsp := if t.phase = .joined then t.toAsp ++ out.filterMap (Action.to c.far) else t.toAsp }

/-- The ASP reads a message. -/
def reads (t : Joint) (message : Message) (active : ℕ → Bool) (now : ℕ) : Joint :=
  match message.said with
  | some said => c.does t (c.slot.handle t.asking (.said said active now))
  | none => t

def step (t : Joint) : Happens → Joint
  | .connect now =>
    if t.phase = .idle then
      c.does { t with phase := .waiting, toGateway := [], toAsp := [] } (c.slot.askUp now)
    else t
  | .serve =>
    if t.phase = .waiting ∧ t.stale = false then
      { c.hears t (.lost c.far) with phase := .joined }
    else t
  | .restart =>
    if t.phase = .waiting ∧ t.stale = true then { t with phase := .joined, stale := false } else t
  | .aspLoses =>
    if t.phase = .idle then t
    else { t with
      asking := ⟨false, [], none⟩
      asp := (t.asp.handle c.asp (.lost c.slot.asp)).1
      phase := .idle
      stale := t.stale || decide (t.phase = .joined) }
  | .gatewayLoses =>
    if t.phase = .joined then c.hears { t with phase := .broken } (.lost c.far)
    else if t.stale then { c.hears t (.lost c.far) with stale := false }
    else t
  | .atGateway =>
    match t.phase, t.toGateway with
    | .joined, request :: rest => c.hears { t with toGateway := rest } request
    | _, _ => t
  | .atAsp active now =>
    match t.toAsp with
    | message :: rest =>
      if t.phase = .joined ∨ t.phase = .broken then
        c.reads { t with toAsp := rest } message active now
      else t
    | [] => t
  | .clock now =>
    if t.phase = .idle then t else c.does t (c.slot.handle t.asking (.clock now))
  | .late act =>
    match t.stale, c.request act with
    | true, some request => c.hears t request
    | _, _ => t
  | .elsewhere input => if input.of = some c.far then t else c.hears t input
  | .beside input =>
    if input.of = some c.slot.asp then t else { t with asp := (t.asp.handle c.asp input).1 }

end Span

/-! ## What the ASP reads -/

section

variable {slot : Slot} {l : Layout} {m : Aspm} {a s now : ℕ}

@[simp] theorem reports_nil : reports [] = [] := rfl

theorem reports_append (xs ys : List Act) : reports (xs ++ ys) = reports xs ++ reports ys :=
  List.filterMap_append

theorem askActive_reports (asking : Asking) (context : ℕ) :
    reports (slot.askActive now asking context).2 = [] := by
  unfold Slot.askActive
  split <;> rfl

theorem askEach_reports (asking : Asking) (contexts : List ℕ) :
    reports (slot.askEach now asking contexts).2 = [] := by
  induction contexts generalizing asking with
  | nil => rfl
  | cons context contexts ih =>
    unfold Slot.askEach
    dsimp only
    rw [reports_append, askActive_reports, ih]
    rfl

theorem resend_reports (asking : Asking) (contexts : List ℕ) :
    reports (slot.resend now asking contexts).2 = [] := by
  induction contexts generalizing asking with
  | nil => rfl
  | cons context contexts ih =>
    unfold Slot.resend
    dsimp only
    rw [List.cons_append]
    refine (reports_append _ _).trans ?_
    rw [askActive_reports, ih]
    rfl

theorem takeOver_reports (active : ℕ → Bool) (asking : Asking) (contexts : List ℕ)
    (position : ℕ) : reports (slot.takeOver active now asking contexts position).2 = [] := by
  induction contexts generalizing asking position with
  | nil => rfl
  | cons context contexts ih =>
    unfold Slot.takeOver
    dsimp only
    split_ifs
    · rw [reports_append, askActive_reports, ih]
      rfl
    · exact ih asking (position + 1)

/-- T(ack) changes nothing of what the ASP takes itself to be. -/
theorem clock_reports (asking : Asking) : reports (slot.handle asking (.clock now)).2 = [] ∧
    (slot.handle asking (.clock now)).1.up = asking.up := by
  rw [Slot.handle_clock]
  split_ifs with hdue
  · unfold Slot.ackTimeout
    dsimp only
    split_ifs with hup
    · exact ⟨rfl, hup.symm⟩
    · exact ⟨resend_reports _ _, (Slot.resend_asked slot _ now _).up⟩
  · exact ⟨rfl, rfl⟩

/-! ### What ASP state maintenance makes of it -/

theorem lt_of_mem (hs : s ∈ (l.asp a).servers) : a < l.asps.length := by
  by_contra hout
  rw [Layout.asp_of_le (Nat.le_of_not_lt hout)] at hs
  cases hs

theorem mem_concerned (hs : s ∈ (l.asp a).servers) (named : List ℕ) :
    s ∈ concerned l a (Slot.handedOn named) ↔
      named = [] ∨ (l.server s).routingContext ∈ named := by
  unfold Slot.handedOn
  split_ifs with hnone
  · simp [concerned, hs, hnone]
  · simp [concerned, hs, hnone]

theorem handle_peerUp (hs : s ∈ (l.asp a).servers) (hproper : Proper (m.standing a s))
    (hdown : (m.asps a).up = false) :
    (m.handle l (.peerUp a)).1.standing a s = (true, false) := by
  have hoff : (m.asps a).active s = false := hproper hdown
  change (m.react l (.peerUp a)).standing a s = _
  unfold react
  dsimp only
  rw [if_pos ⟨lt_of_mem hs, hdown⟩, standing_bringUp, if_pos rfl, hoff]

theorem handle_peerActive (hs : s ∈ (l.asp a).servers) (hproper : Proper (m.standing a s))
    (mode : Option ℕ) (named : List ℕ) :
    (m.handle l (.peerActive a (Slot.handedOn named))).1.standing a s =
      (Message.activeAck mode named).tells (l.server s).routingContext (m.standing a s) := by
  change (m.react l (.peerActive a (Slot.handedOn named))).standing a s = _
  unfold react
  dsimp only
  cases hup : (m.asps a).up with
  | false =>
    have hoff : (m.asps a).active s = false := hproper hup
    simp [Message.tells, standing, hup, hoff]
  | true =>
    rw [if_pos ⟨lt_of_mem hs, rfl⟩, standing_activate_foldl _ hs]
    by_cases hmem : named = [] ∨ (l.server s).routingContext ∈ named
    · rw [if_pos ((mem_concerned hs named).mpr hmem)]
      simp [Message.tells, standing, hup, hmem]
    · rw [if_neg fun h => hmem ((mem_concerned hs named).mp h)]
      simp [Message.tells, standing, hmem]

theorem handle_peerInactive (hs : s ∈ (l.asp a).servers) (hproper : Proper (m.standing a s))
    (named : List ℕ) :
    (m.handle l (.peerInactive a (Slot.handedOn named))).1.standing a s =
      (Message.inactiveAck named).tells (l.server s).routingContext (m.standing a s) := by
  change (m.react l (.peerInactive a (Slot.handedOn named))).standing a s = _
  unfold react
  dsimp only
  rw [if_pos (lt_of_mem hs), standing_deactivate_foldl hproper hs]
  by_cases hmem : named = [] ∨ (l.server s).routingContext ∈ named
  · rw [if_pos ⟨rfl, (mem_concerned hs named).mpr hmem⟩]
    simp [Message.tells, standing, hmem]
  · rw [if_neg fun h => hmem ((mem_concerned hs named).mp h.2)]
    simp [Message.tells, standing, hmem]

theorem handle_lost (hs : s ∈ (l.asp a).servers) (hproper : Proper (m.standing a s)) :
    (m.handle l (.lost a)).1.standing a s = (false, false) := by
  change (m.react l (.lost a)).standing a s = _
  unfold react
  dsimp only
  rw [if_pos (lt_of_mem hs)]
  exact (standing_takeDown hproper hs a true).trans (if_pos rfl)

end

namespace Span

variable {c : Span} {t : Joint} {s s' : ℕ}

theorem does_asp (t : Joint) {r : Asking × List Act} {input : Input} (h : reports r.2 = [input]) :
    (c.does t r).asp = (t.asp.handle c.asp input).1 := by
  unfold does
  rw [h]
  rfl

theorem does_quiet (t : Joint) {r : Asking × List Act} (h : reports r.2 = []) :
    (c.does t r).asp = t.asp := by
  unfold does
  rw [h]
  rfl

/-- What the ASP submits when its ASP Up is acknowledged leaves it up, and active nowhere. -/
theorem reads_upAck (hs : s ∈ (c.asp.asp c.slot.asp).servers)
    (hproper : Proper (t.asp.standing c.slot.asp s))
    (hlinked : t.asking.up = (t.asp.standing c.slot.asp s).1) (active : ℕ → Bool) (now : ℕ) :
    (c.reads t .upAck active now).asp.standing c.slot.asp s = (true, false) ∧
      (c.reads t .upAck active now).asking.up = true := by
  let submitted : Input :=
    if t.asking.up then .peerInactive c.slot.asp none else .peerUp c.slot.asp
  let asked := c.slot.askEach now { t.asking with up := true, at_ := none } (c.slot.about [])
  have hreads : c.reads t .upAck active now =
      c.does t (asked.1, .submit submitted :: asked.2) := rfl
  have hreports : reports (.submit submitted :: asked.2) = [submitted] :=
    congrArg (submitted :: ·) (askEach_reports _ _)
  rw [hreads]
  refine ⟨?_, (Slot.askEach_asked c.slot _ now _).up⟩
  rw [does_asp t hreports]
  cases hup : t.asking.up with
  | false =>
    have hdown : (t.asp.asps c.slot.asp).up = false := hlinked.symm.trans hup
    simp only [submitted, hup, Bool.false_eq_true, ↓reduceIte]
    exact handle_peerUp hs hproper hdown
  | true =>
    have hison : (t.asp.asps c.slot.asp).up = true := hlinked.symm.trans hup
    simp only [submitted, hup, ↓reduceIte]
    refine (handle_peerInactive hs hproper []).trans ?_
    simp [Message.tells, standing, hison]

/-- Of the Notify messages only one makes an ASP inactive, and it may ask for others. -/
theorem reads_notify (hs : s ∈ (c.asp.asp c.slot.asp).servers)
    (hproper : Proper (t.asp.standing c.slot.asp s)) (server : ℕ) (status : Status)
    (identifier : Option ℕ) (about : ℕ) (active : ℕ → Bool) (now : ℕ) :
    (c.reads t (.notify server status identifier about) active now).asp.standing c.slot.asp s =
        (Message.notify server status identifier about).tells (c.asp.server s).routingContext
          (t.asp.standing c.slot.asp s) ∧
      (c.reads t (.notify server status identifier about) active now).asking.up =
        t.asking.up := by
  let taken := c.slot.takeOver active now t.asking (c.slot.about [about]) 0
  have htaken : reports taken.2 = [] ∧ taken.1.up = t.asking.up := by
    obtain ⟨asked, -, hasked⟩ :=
      Slot.takeOver_asked c.slot active t.asking now (c.slot.about [about]) 0
    exact ⟨takeOver_reports _ _ _ _, hasked.up⟩
  have hquiet : ∀ r : Asking × List Act, reports r.2 = [] → r.1.up = t.asking.up →
      status ≠ .alternateAspActive →
      (c.does t r).asp.standing c.slot.asp s =
          (Message.notify server status identifier about).tells (c.asp.server s).routingContext
            (t.asp.standing c.slot.asp s) ∧ (c.does t r).asking.up = t.asking.up := by
    intro r hreports hup hstatus
    rw [does_quiet t hreports]
    exact ⟨by simp [Message.tells, hstatus], hup⟩
  cases status with
  | alternateAspActive =>
    refine ⟨(handle_peerInactive hs hproper [about]).trans ?_, rfl⟩
    simp [Message.tells, eq_comm]
  | asPending => exact hquiet taken htaken.1 htaken.2 (by decide)
  | asInactive => exact hquiet taken htaken.1 htaken.2 (by decide)
  | insufficientResources => exact hquiet taken htaken.1 htaken.2 (by decide)
  | asActive => exact hquiet (t.asking, []) rfl rfl (by decide)
  | aspFailure => exact hquiet (t.asking, []) rfl rfl (by decide)

/-- An ASP that reads a message takes itself for what that tells it. -/
theorem reads_tells (hs : s ∈ (c.asp.asp c.slot.asp).servers)
    (hproper : Proper (t.asp.standing c.slot.asp s))
    (hlinked : t.asking.up = (t.asp.standing c.slot.asp s).1) (message : Message)
    (active : ℕ → Bool) (now : ℕ) :
    (c.reads t message active now).asp.standing c.slot.asp s =
        message.tells (c.asp.server s).routingContext (t.asp.standing c.slot.asp s) ∧
      (c.reads t message active now).asking.up =
        ((c.reads t message active now).asp.standing c.slot.asp s).1 := by
  cases message with
  | upAck =>
    obtain ⟨hstanding, hup⟩ := reads_upAck hs hproper hlinked active now
    exact ⟨hstanding, hup.trans (congrArg Prod.fst hstanding).symm⟩
  | downAck =>
    have hlost := handle_lost hs hproper
    exact ⟨hlost, (congrArg Prod.fst hlost).symm⟩
  | activeAck mode named =>
    have hactive := handle_peerActive hs hproper mode named
    exact ⟨hactive, hlinked.trans (congrArg Prod.fst hactive).symm⟩
  | inactiveAck named =>
    have hinactive := handle_peerInactive hs hproper named
    exact ⟨hinactive, hlinked.trans (congrArg Prod.fst hinactive).symm⟩
  | notify server status identifier about =>
    obtain ⟨hstanding, hup⟩ := reads_notify hs hproper server status identifier about active now
    exact ⟨hstanding, hup.trans (hlinked.trans (congrArg Prod.fst hstanding).symm)⟩
  | error code named => exact ⟨rfl, hlinked⟩

theorem reads_frame (t : Joint) (message : Message) (active : ℕ → Bool) (now : ℕ) :
    (c.reads t message active now).gateway = t.gateway ∧
      (c.reads t message active now).phase = t.phase ∧
      (c.reads t message active now).stale = t.stale ∧
      (c.reads t message active now).toAsp = t.toAsp ∧
      ∃ acts : List Act, (c.reads t message active now).toGateway =
        t.toGateway ++ acts.filterMap c.request := by
  unfold reads
  cases message.said with
  | none => exact ⟨rfl, rfl, rfl, rfl, [], by simp⟩
  | some said => exact ⟨rfl, rfl, rfl, rfl, _, rfl⟩

/-! ## What the gateway hears -/

/-- A request at the gateway takes the ASP to its new state by what it is answered, and an ASP Up
does so whatever the ASP takes itself for. -/
theorem request_relays (h : Serves c.gateway c.far s') {m : Aspm}
    (hproper : Proper (m.standing c.far s')) {act : Act} {input : Input}
    (hinput : c.request act = some input) :
    Relays c.gateway c.far s' m (m.react c.gateway input) ∧
      (input.isUp = true → Resets c.gateway c.far s' m (m.react c.gateway input)) := by
  have hlt : c.far < c.gateway.asps.length := lt_of_mem h.mem
  cases act with
  | aspUp identifier =>
    obtain rfl := Option.some.inj hinput
    have hreact : m.react c.gateway (.up c.far identifier) = m.up c.gateway c.far identifier :=
      if_pos hlt
    have hresets := resets_up h hproper identifier
    rw [hreact]
    exact ⟨hresets.relays, fun _ => hresets⟩
  | aspActive mode context =>
    obtain rfl := Option.some.inj hinput
    have hreact : m.react c.gateway (.active c.far (some mode) (some [context])) =
        m.active c.gateway c.far (some mode) (some [context]) := if_pos hlt
    rw [hreact]
    have hrelays : Relays c.gateway c.far s' m
        (m.active c.gateway c.far (some mode) (some [context])) :=
      relays_active h m fun hnone => by cases hnone
    exact ⟨hrelays, fun hup => by cases hup⟩
  | missingParameter => cases hinput
  | unexpected named => cases hinput
  | submit submitted => cases hinput
  | ackTimeout => cases hinput

/-- What holds of the two nodes at all times: what is on its way to the gateway are requests, an ASP
that the gateway does not serve yet is down and has asked to come up, and the gateway serves one
association at a time. -/
structure Sides (c : Span) (s s' : ℕ) (t : Joint) : Prop where
  asp : Proper (t.asp.standing c.slot.asp s)
  gateway : Proper (t.gateway.standing c.far s')
  out : t.gateway.out = []
  linked : t.asking.up = (t.asp.standing c.slot.asp s).1
  away : t.phase = .idle ∨ t.phase = .waiting → t.asking.up = false
  stale : t.stale = true → t.phase ≠ .joined
  requests : ∀ input ∈ t.toGateway, ∃ act, c.request act = some input
  waits : t.phase = .waiting → t.toAsp = [] ∧ ∃ input ∈ t.toGateway, input.isUp = true

/-- While both nodes have the association, either an ASP Up is on its way to the gateway, or what is
on its way to the ASP takes it to the state that the gateway has. -/
def Agreed (c : Span) (s s' : ℕ) (t : Joint) : Prop :=
  t.phase = .joined → (∃ input ∈ t.toGateway, input.isUp = true) ∨
    t.toAsp.foldl (Message.tells (c.gateway.server s').routingContext)
      (t.asp.standing c.slot.asp s) = t.gateway.standing c.far s'

theorem Sides.hears (h : Sides c s s' t) {input : Input}
    (hproper : Proper ((t.gateway.react c.gateway input).standing c.far s')) :
    Sides c s s' (c.hears t input) where
  asp := h.asp
  gateway := hproper
  out := rfl
  linked := h.linked
  away := h.away
  stale := h.stale
  requests := h.requests
  waits hwaiting := by
    have hphase : t.phase = .waiting := hwaiting
    refine ⟨?_, (h.waits hphase).2⟩
    simp [Span.hears, hphase, (h.waits hphase).1]

/-- What the gateway hears of others reaches the ASP as far as it changes its state. -/
theorem Agreed.hears (hagreed : Agreed c s s' t) (hout : t.gateway.out = []) {input : Input}
    (hrelays : Relays c.gateway c.far s' t.gateway (t.gateway.react c.gateway input)) :
    Agreed c s s' (c.hears t input) := by
  intro hjoined
  have hphase : t.phase = .joined := hjoined
  refine (hagreed hphase).imp id fun hsame => ?_
  obtain ⟨extra, hextra, htold⟩ := hrelays
  rw [hout, List.nil_append] at hextra
  have htoAsp : (c.hears t input).toAsp = t.toAsp ++ extra.filterMap (Action.to c.far) := by
    simp only [Span.hears, hphase, ↓reduceIte, Aspm.handle, hextra]
  have hasp : (c.hears t input).asp = t.asp := rfl
  rw [htoAsp, List.foldl_append, hasp, hsame]
  exact htold

theorem agreed_hears_up (hphase : t.phase = .joined) (hout : t.gateway.out = []) {input : Input}
    (hresets : Resets c.gateway c.far s' t.gateway (t.gateway.react c.gateway input)) :
    Agreed c s s' (c.hears t input) := by
  intro _
  obtain ⟨extra, hextra, htold⟩ := hresets
  rw [hout, List.nil_append] at hextra
  have htoAsp : (c.hears t input).toAsp = t.toAsp ++ extra.filterMap (Action.to c.far) := by
    simp only [Span.hears, hphase, ↓reduceIte, Aspm.handle, hextra]
  right
  rw [htoAsp, List.foldl_append]
  exact htold _

/-! ## One event -/

/-- The ASP side asks, or asks again. -/
theorem Sides.does (h : Sides c s s' t) {r : Asking × List Act} (hquiet : reports r.2 = [])
    (hup : r.1.up = t.asking.up) : Sides c s s' (c.does t r) := by
  have hasp : (c.does t r).asp = t.asp := does_quiet t hquiet
  refine ⟨by rw [hasp]; exact h.asp, h.gateway, h.out, ?_, fun haway => hup.trans (h.away haway),
    h.stale, fun input hmem => ?_, fun hwaiting => ⟨(h.waits hwaiting).1, ?_⟩⟩
  · rw [hasp]
    exact hup.trans h.linked
  · rcases List.mem_append.mp hmem with hold | hnew
    · exact h.requests input hold
    · obtain ⟨act, -, hrequest⟩ := List.mem_filterMap.mp hnew
      exact ⟨act, hrequest⟩
  · obtain ⟨input, hmem, hisUp⟩ := (h.waits hwaiting).2
    exact ⟨input, List.mem_append_left _ hmem, hisUp⟩

theorem Agreed.does (h : Agreed c s s' t) {r : Asking × List Act} (hquiet : reports r.2 = []) :
    Agreed c s s' (c.does t r) := by
  intro hjoined
  refine (h hjoined).imp (fun hasked => ?_) fun hsame => ?_
  · obtain ⟨input, hmem, hisUp⟩ := hasked
    exact ⟨input, List.mem_append_left _ hmem, hisUp⟩
  · rw [does_quiet t hquiet]
    exact hsame

/-- The ASP reads the next message on its way. -/
theorem step_atAsp (hs : s ∈ (c.asp.asp c.slot.asp).servers)
    (hcontext : (c.asp.server s).routingContext = (c.gateway.server s').routingContext)
    (h : Sides c s s' t) (hagreed : Agreed c s s' t) (active : ℕ → Bool) (now : ℕ) :
    Sides c s s' (c.step t (.atAsp active now)) ∧ Agreed c s s' (c.step t (.atAsp active now)) := by
  unfold step
  dsimp only
  split
  next message rest htoAsp =>
    split_ifs with hphase
    · set t' : Joint := { t with toAsp := rest } with ht'
      have hread := reads_tells (t := t') hs h.asp h.linked message active now
      obtain ⟨hgateway, hphase', hstale, hrest, acts, htoGateway⟩ :=
        reads_frame (c := c) t' message active now
      have hreached : t.phase ≠ .idle ∧ t.phase ≠ .waiting := by
        constructor
        all_goals
          rintro hno
          simp [hno] at hphase
      constructor
      · refine ⟨?_, by rw [hgateway]; exact h.gateway, by rw [hgateway]; exact h.out, hread.2,
          fun haway => ?_, ?_, fun input hmem => ?_, fun hwaiting => ?_⟩
        · rw [hread.1]
          exact message.tells_proper _ h.asp
        · rw [hphase'] at haway
          exact absurd haway (not_or.mpr hreached)
        · rw [hstale, hphase']
          exact h.stale
        · rw [htoGateway] at hmem
          rcases List.mem_append.mp hmem with hold | hnew
          · exact h.requests input hold
          · obtain ⟨act, -, hrequest⟩ := List.mem_filterMap.mp hnew
            exact ⟨act, hrequest⟩
        · exact absurd (hphase'.symm.trans hwaiting) hreached.2
      · intro hjoined
        refine (hagreed (hphase'.symm.trans hjoined)).imp (fun hasked => ?_) fun hsame => ?_
        · obtain ⟨input, hmem, hisUp⟩ := hasked
          exact ⟨input, by rw [htoGateway]; exact List.mem_append_left _ hmem, hisUp⟩
        · rw [hrest, hread.1, hgateway, hcontext]
          rw [htoAsp] at hsame
          exact hsame
    · exact ⟨h, hagreed⟩
  next => exact ⟨h, hagreed⟩

theorem step_atGateway (hserves : Serves c.gateway c.far s') (h : Sides c s s' t)
    (hagreed : Agreed c s s' t) :
    Sides c s s' (c.step t .atGateway) ∧ Agreed c s s' (c.step t .atGateway) := by
  unfold step
  dsimp only
  split
  next request rest hphase htoGateway =>
    obtain ⟨act, hact⟩ := h.requests request (by rw [htoGateway]; exact List.mem_cons_self)
    obtain ⟨hrelays, hresets⟩ := request_relays hserves h.gateway hact
    have hproper := hserves.carries.proper hrelays h.gateway
    have hbefore : Sides c s s' { t with toGateway := rest } :=
      ⟨h.asp, h.gateway, h.out, h.linked, h.away, h.stale,
        fun input hmem => h.requests input (by rw [htoGateway]; exact List.mem_cons_of_mem _ hmem),
        fun hwaiting => absurd (hphase.symm.trans hwaiting) (by decide)⟩
    refine ⟨hbefore.hears hproper, ?_⟩
    cases hisUp : request.isUp with
    | true => exact agreed_hears_up (t := { t with toGateway := rest }) hphase h.out (hresets hisUp)
    | false =>
      have hrest : Agreed c s s' { t with toGateway := rest } := by
        intro hjoined
        refine (hagreed hjoined).imp (fun hasked => ?_) id
        obtain ⟨input, hmem, hup⟩ := hasked
        rw [htoGateway] at hmem
        rcases List.mem_cons.mp hmem with rfl | hrest
        · exact absurd (hisUp.symm.trans hup) (by simp)
        · exact ⟨input, hrest, hup⟩
      exact hrest.hears h.out hrelays
  next => exact ⟨h, hagreed⟩

/-- The ASP has a new association, and asks to come up. -/
theorem step_connect (h : Sides c s s' t) (hagreed : Agreed c s s' t) (now : ℕ) :
    Sides c s s' (c.step t (.connect now)) ∧ Agreed c s s' (c.step t (.connect now)) := by
  unfold step
  dsimp only
  split_ifs with hidle
  · have hrequest : c.request (.aspUp c.slot.aspId) = some (.up c.far c.slot.aspId) := rfl
    refine ⟨⟨h.asp, h.gateway, h.out, (h.away (.inl hidle)).symm.trans h.linked, fun _ => rfl,
      nofun, fun input hmem => ?_, fun _ => ⟨rfl, .up c.far c.slot.aspId, ?_,
        rfl⟩⟩, nofun⟩
    · obtain rfl := List.mem_singleton.mp hmem
      exact ⟨_, hrequest⟩
    · exact List.mem_cons_self
  · exact ⟨h, hagreed⟩

/-- The gateway serves an association in which the ASP has yet to come up. -/
theorem step_serve (hserves : Serves c.gateway c.far s') (h : Sides c s s' t)
    (hagreed : Agreed c s s' t) :
    Sides c s s' (c.step t .serve) ∧ Agreed c s s' (c.step t .serve) := by
  unfold step
  dsimp only
  split_ifs with hwaiting
  · have hlost := handle_lost hserves.mem h.gateway
    have hheard : Sides c s s' (c.hears t (.lost c.far)) := h.hears (hlost ▸ fun _ => rfl)
    refine ⟨⟨h.asp, hheard.gateway, rfl, h.linked, fun haway => ?_, fun hstale => ?_, h.requests,
      nofun⟩, fun _ => .inr ?_⟩
    · exact h.away (.inr hwaiting.1)
    · exact absurd (hwaiting.2.symm.trans hstale) (by decide)
    · have hempty : (c.hears t (.lost c.far)).toAsp = [] := (hheard.waits hwaiting.1).1
      have hdown : (t.asp.standing c.slot.asp s).1 = false :=
        h.linked.symm.trans (h.away (.inr hwaiting.1))
      have hnone : t.asp.standing c.slot.asp s = (false, false) := Prod.ext hdown (h.asp hdown)
      dsimp only
      rw [hempty]
      exact hnone.trans hlost.symm
  · exact ⟨h, hagreed⟩

theorem step_aspLoses (hs : s ∈ (c.asp.asp c.slot.asp).servers) (h : Sides c s s' t)
    (hagreed : Agreed c s s' t) :
    Sides c s s' (c.step t .aspLoses) ∧ Agreed c s s' (c.step t .aspLoses) := by
  unfold step
  dsimp only
  split_ifs
  · exact ⟨h, hagreed⟩
  · have hlost := handle_lost hs h.asp
    exact ⟨⟨hlost ▸ fun _ => rfl, h.gateway, h.out, (congrArg Prod.fst hlost).symm, fun _ => rfl,
      nofun, h.requests, nofun⟩, nofun⟩

theorem step_gatewayLoses (hserves : Serves c.gateway c.far s') (h : Sides c s s' t)
    (hagreed : Agreed c s s' t) :
    Sides c s s' (c.step t .gatewayLoses) ∧ Agreed c s s' (c.step t .gatewayLoses) := by
  have hlost := handle_lost hserves.mem h.gateway
  unfold step
  dsimp only
  split_ifs with hjoined hstale
  · refine ⟨⟨h.asp, hlost ▸ fun _ => rfl, rfl, h.linked, fun haway => ?_, nofun,
      h.requests, nofun⟩, nofun⟩
    rcases haway with hno | hno <;> cases hno
  · have hheard : Sides c s s' (c.hears t (.lost c.far)) := h.hears (hlost ▸ fun _ => rfl)
    exact ⟨⟨hheard.asp, hheard.gateway, hheard.out, hheard.linked, hheard.away,
      nofun, hheard.requests, hheard.waits⟩, fun hno => absurd hno hjoined⟩
  · exact ⟨h, hagreed⟩

theorem step_late (hserves : Serves c.gateway c.far s') (h : Sides c s s' t)
    (hagreed : Agreed c s s' t) (act : Act) :
    Sides c s s' (c.step t (.late act)) ∧ Agreed c s s' (c.step t (.late act)) := by
  unfold step
  dsimp only
  split
  next request hstale hrequest =>
    have hrelays := (request_relays hserves h.gateway hrequest).1
    exact ⟨h.hears (hserves.carries.proper hrelays h.gateway), hagreed.hears h.out hrelays⟩
  next => exact ⟨h, hagreed⟩

/-- What becomes of other ASPs of the node that is one leaves it as it is. -/
theorem step_beside (hs : s ∈ (c.asp.asp c.slot.asp).servers) (hl : c.asp.Consistent)
    (hsole : c.asp.Sole c.slot.asp) (h : Sides c s s' t) (hagreed : Agreed c s s' t)
    (input : Input) :
    Sides c s s' (c.step t (.beside input)) ∧ Agreed c s s' (c.step t (.beside input)) := by
  unfold step
  dsimp only
  split_ifs with hof
  · exact ⟨h, hagreed⟩
  · have hsame : (t.asp.handle c.asp input).1.standing c.slot.asp s =
        t.asp.standing c.slot.asp s := (carries_of_sole hl hsole hs).react hs h.asp hof
    refine ⟨⟨hsame ▸ h.asp, h.gateway, h.out, ?_, h.away, h.stale, h.requests, h.waits⟩,
      fun hjoined => (hagreed hjoined).imp id fun hfold => ?_⟩
    · exact h.linked.trans (congrArg Prod.fst hsame).symm
    · rw [hsame]
      exact hfold

theorem step_kept (hs : s ∈ (c.asp.asp c.slot.asp).servers)
    (hcontext : (c.asp.server s).routingContext = (c.gateway.server s').routingContext)
    (hserves : Serves c.gateway c.far s') (hl : c.asp.Consistent) (hsole : c.asp.Sole c.slot.asp)
    (h : Sides c s s' t) (hagreed : Agreed c s s' t) (e : Happens) :
    Sides c s s' (c.step t e) ∧ Agreed c s s' (c.step t e) := by
  cases e with
  | connect now => exact step_connect h hagreed now
  | serve => exact step_serve hserves h hagreed
  | restart =>
    unfold step
    dsimp only
    split_ifs with hwaiting
    · exact ⟨⟨h.asp, h.gateway, h.out, h.linked, fun _ => h.away (.inr hwaiting.1),
        nofun, h.requests, nofun⟩,
        fun _ => .inl (h.waits hwaiting.1).2⟩
    · exact ⟨h, hagreed⟩
  | aspLoses => exact step_aspLoses hs h hagreed
  | gatewayLoses => exact step_gatewayLoses hserves h hagreed
  | atGateway => exact step_atGateway hserves h hagreed
  | atAsp active now => exact step_atAsp hs hcontext h hagreed active now
  | clock now =>
    unfold step
    dsimp only
    split_ifs
    · exact ⟨h, hagreed⟩
    · obtain ⟨hquiet, hup⟩ : reports (c.slot.handle t.asking (.clock now)).2 = [] ∧
          (c.slot.handle t.asking (.clock now)).1.up = t.asking.up := clock_reports t.asking
      exact ⟨h.does hquiet hup, hagreed.does hquiet⟩
  | late act => exact step_late hserves h hagreed act
  | elsewhere input =>
    unfold step
    dsimp only
    split_ifs with hof
    · exact ⟨h, hagreed⟩
    · have hrelays := hserves.carries.react hserves.mem h.gateway hof
      exact ⟨h.hears (hserves.carries.proper hrelays h.gateway), hagreed.hears h.out hrelays⟩
  | beside input => exact step_beside hs hl hsole h hagreed input

/-- A node that is one of two ASPs of a gateway, of which one is active at a time. -/
def takenOver : Span where
  slot := ⟨0, [⟨0, 0, 10, .override⟩], 2000, none⟩
  asp := ⟨[⟨"sg", [0], false⟩], [⟨"as", 10, .override, [0], 1, none⟩]⟩
  gateway := ⟨[⟨"asp-0", [0], true⟩, ⟨"asp-1", [0], true⟩],
    [⟨"as", 10, .override, [0, 1], 1, some 2000⟩]⟩
  far := 0

/-- The node becomes active, the other ASP takes over, and that is read. -/
def takingOver : List Happens :=
  [.connect 0, .serve, .atGateway, .atAsp (fun _ => false) 1, .atAsp (fun _ => false) 1, .atGateway,
    .atAsp (fun _ => false) 2, .atAsp (fun _ => true) 2, .elsewhere (.up 1 none),
    .elsewhere (.active 1 none none), .atAsp (fun _ => true) 3]

end Span

end AspSide

end SiphonSigtran.Transport
