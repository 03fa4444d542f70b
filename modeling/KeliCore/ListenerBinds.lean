/-
The check that no two listeners ask for the same socket, against the sockets
that the started servers bind.
-/
import KeliCore.Controller

namespace KeliCore

open Sample

open List

/-- The sockets that `start_*_listener` binds for its server. -/
def ListenerSetup.networks : ListenerSetup → List BindNetwork
  | shadowsocks _ _ udp => if udp then [.tcp, .udp] else [.tcp]
  | naive _ _ quic => if quic then [.udp] else [.tcp]
  | tuic .. | hysteria2 .. => [.udp]
  | _ => [.tcp]

def dualStackWildcardAddr (listen : SocketAddr) : SocketAddr :=
  match listen.ip with
  | .v4 bits => if bits = 0 then ⟨.v6 0, listen.port⟩ else listen
  | .v6 _ => listen

/-- The sockets of an inbound; none if its address does not resolve. -/
def boundSockets (env : Externals) (policy : PolicyConfig) (world : World)
    (inbound : InboundConfig) : List (BindNetwork × SocketAddr) :=
  match resolveListenAddr world inbound.listen inbound.port with
  | .error _ => []
  | .ok addr =>
    (listenerSetup env policy inbound).networks.map fun network =>
      (network, dualStackWildcardAddr addr)

/-- Two sockets that both receive what is sent to some address; the sockets are
dual-stack. -/
def Overlap (left right : BindNetwork × SocketAddr) : Prop :=
  left.1 = right.1 ∧ left.2.port = right.2.port ∧
    (left.2.ip.destination = right.2.ip.destination ∨ left.2.ip.isUnspecified ∨
      right.2.ip.isUnspecified)

/-- They overlap because their addresses are two forms of one, as `127.0.0.1`
and `::ffff:127.0.0.1`. -/
def Disguised (left right : BindNetwork × SocketAddr) : Prop :=
  Overlap left right ∧ left.2.ip ≠ right.2.ip ∧ left.2.ip.isUnspecified = false ∧
    right.2.ip.isUnspecified = false

/-- Two specs that `checkBindSpec` lets stand together. -/
def Apart (left right : ListenerBindSpec) : Prop :=
  ¬ (left.network = right.network ∧ listenAddrsConflict left.addr right.addr = true)

theorem checkBindSpec_iff {seen : List ListenerBindSpec} {spec : ListenerBindSpec} :
    checkBindSpec seen spec = .ok () ↔ ∀ existing ∈ seen, Apart existing spec := by
  unfold checkBindSpec
  split
  next hnone => simpa [Apart] using hnone
  next existing hfound =>
    refine iff_of_false nofun fun hapart => ?_
    have hboth := find?_some hfound
    rw [Bool.and_eq_true, beq_iff_eq] at hboth
    exact hapart existing (mem_of_find?_eq_some hfound) hboth

variable {seen specs after : List ListenerBindSpec}

theorem foldlM_checkBindSpec_iff (hseen : seen.Pairwise Apart) :
    (specs.foldlM (fun seen spec => do
        checkBindSpec seen spec
        pure (seen ++ [spec])) seen) = Except.ok after ↔
      after = seen ++ specs ∧ (seen ++ specs).Pairwise Apart := by
  induction specs generalizing seen with
  | nil => simp [hseen, eq_comm, pure, Except.pure]
  | cons spec specs ih =>
    rw [foldlM_cons]
    cases hcheck : checkBindSpec seen spec with
    | error error =>
      refine iff_of_false nofun fun hboth => ?_
      rw [checkBindSpec_iff.2 fun existing hmem =>
        (pairwise_append.1 hboth.2).2.2 existing hmem spec mem_cons_self] at hcheck
      cases hcheck
    | ok =>
      have hnext : (seen ++ [spec]).Pairwise Apart := pairwise_append.2
        ⟨hseen, pairwise_singleton _ _, by simpa using checkBindSpec_iff.1 hcheck⟩
      have hrest := ih hnext
      rw [append_assoc, singleton_append] at hrest
      exact hrest

/-- The specs that are checked for an inbound. -/
def bindSpecs (world : World) (inbound : InboundConfig) : List ListenerBindSpec :=
  (listenerBindSpecs world inbound).toOption.getD []

theorem validateUniqueListenerBinds_iff {world : World} {inbounds : List InboundConfig}
    (hseen : seen.Pairwise Apart) :
    validateUniqueListenerBinds world seen inbounds = .ok () ↔
      (∀ inbound ∈ inbounds, ∃ specs, listenerBindSpecs world inbound = .ok specs) ∧
        (seen ++ inbounds.flatMap (bindSpecs world)).Pairwise Apart := by
  induction inbounds generalizing seen with
  | nil => simp [validateUniqueListenerBinds, hseen]
  | cons inbound rest ih =>
    rw [validateUniqueListenerBinds, forall_mem_cons, flatMap_cons, ← append_assoc, bindSpecs]
    cases hspecs : listenerBindSpecs world inbound with
    | error error => simp [bind, Except.bind]
    | ok specs =>
      have hstep := fun after => @foldlM_checkBindSpec_iff seen specs after hseen
      simp only [bind, Except.bind, Except.toOption, Option.getD_some] at hstep ⊢
      split
      next error hfold =>
        refine iff_of_false nofun fun hboth => ?_
        rw [(hstep _).2 ⟨rfl, (pairwise_append.1 hboth.2).1⟩] at hfold
        cases hfold
      next after hfold =>
        obtain ⟨rfl, hnext⟩ := (hstep after).1 hfold
        simp [ih hnext]

theorem boundSockets_eq (env : Externals) (policy : PolicyConfig) (world : World) :
    boundSockets env policy world = fun inbound => (bindSpecs world inbound).map fun spec =>
      (spec.network, dualStackWildcardAddr spec.addr) := by
  funext inbound
  unfold boundSockets bindSpecs listenerBindSpecs listenerSetup
  cases resolveListenAddr world inbound.listen inbound.port with
  | error error => rfl
  | ok addr =>
    unfold protocolBindsTcp protocolBindsUdp inboundBindsQuic naiveUsesQuic
    dsimp only
    cases inbound.protocol with
    | shadowsocks => cases shadowsocksUdpEnabled inbound.transport <;> rfl
    | naive => cases naiveH3 inbound <;> rfl
    | _ => rfl

/-- Only a wildcard is rewritten, to a wildcard. -/
theorem dualStackWildcardAddr_cases (addr : SocketAddr) :
    dualStackWildcardAddr addr = addr ∨ addr.ip.isUnspecified ∧
      (dualStackWildcardAddr addr).ip.isUnspecified ∧
        (dualStackWildcardAddr addr).port = addr.port := by
  unfold dualStackWildcardAddr
  split
  next bits hip =>
    split
    next hzero => exact .inr ⟨by rw [hip, hzero]; rfl, rfl, rfl⟩
    · exact .inl rfl
  · exact .inl rfl

/-- The check lets stand what does not overlap, and what it does not see. -/
theorem apart_iff (left right : ListenerBindSpec) :
    let leftBound := (left.network, dualStackWildcardAddr left.addr)
    let rightBound := (right.network, dualStackWildcardAddr right.addr)
    Apart left right ↔ (Overlap leftBound rightBound → Disguised leftBound rightBound) := by
  intro leftBound rightBound
  have hconflict : (left.network = right.network ∧
      listenAddrsConflict left.addr right.addr = true) ↔ Overlap leftBound rightBound ∧
        (leftBound.2.ip = rightBound.2.ip ∨ leftBound.2.ip.isUnspecified ∨
          rightBound.2.ip.isUnspecified) := by
    simp only [leftBound, rightBound, Overlap, listenAddrsConflict, Bool.and_eq_true,
      Bool.or_eq_true, beq_iff_eq, or_assoc]
    rcases dualStackWildcardAddr_cases left.addr with hl | ⟨hl, hl', hport⟩ <;>
      rcases dualStackWildcardAddr_cases right.addr with hr | ⟨hr, hr', hport'⟩ <;>
        simp only [*, true_or, or_true, and_true]
    exact ⟨fun hsame => ⟨⟨hsame.1, hsame.2.1, hsame.2.2.imp_left (congrArg _)⟩, hsame.2.2⟩,
      fun hboth => ⟨hboth.1.1, hboth.1.2.1, hboth.2⟩⟩
  rw [Apart, hconflict, not_and]
  simp only [Disguised, not_or, Bool.not_eq_true]
  exact forall_congr' fun hover => (and_iff_right hover).symm

/-- The check passes exactly when every address resolves and no two of the
sockets that the listeners bind overlap; exactly if, where the addresses
resolve and only disguised sockets overlap, there are none. -/
theorem binds_accepted_iff (env : Externals) (policy : PolicyConfig) (world : World)
    (inbounds : List InboundConfig) :
    let resolves := ∀ inbound ∈ inbounds, ∃ specs, listenerBindSpecs world inbound = .ok specs
    let sockets := inbounds.flatMap (boundSockets env policy world)
    (validateUniqueListenerBinds world [] inbounds = .ok () ↔
        resolves ∧ sockets.Pairwise fun left right => ¬ Overlap left right) ↔
      (resolves ∧ (sockets.Pairwise fun left right => Overlap left right → Disguised left right) →
        sockets.Pairwise fun left right => ¬ Disguised left right) := by
  intro resolves sockets
  have haccepts : validateUniqueListenerBinds world [] inbounds = .ok () ↔
      resolves ∧ sockets.Pairwise fun left right => Overlap left right → Disguised left right := by
    simp only [sockets, boundSockets_eq, ← map_flatMap, pairwise_map, ← apart_iff]
    rw [validateUniqueListenerBinds_iff .nil, nil_append]
  have hpart : (sockets.Pairwise fun left right => ¬ Overlap left right) ↔
      (sockets.Pairwise fun left right => Overlap left right → Disguised left right) ∧
        sockets.Pairwise fun left right => ¬ Disguised left right := by
    rw [← pairwise_and_iff]
    refine ⟨.imp fun hfree => ⟨fun hover => absurd hover hfree, fun hdis => hfree hdis.1⟩, ?_⟩
    exact .imp fun hboth hover => hboth.2 (hboth.1 hover)
  rw [haccepts, hpart]
  tauto

/-- `127.0.0.1` in both of its forms. -/
def mappedWorld : World :=
  { world [] with
    toSocketAddrs := fun listen port =>
      .ok [⟨if listen = "127.0.0.1" then .v4 0x7f000001 else .v6 0xffff7f000001, port⟩] }

/-- Both sockets receive what is sent to `127.0.0.1`, and the check passes. -/
theorem mapped_address_bound_twice :
    let inbounds := [inbound "a" .socks 80 [],
      { inbound "b" .socks 80 [] with listen := "::ffff:127.0.0.1" }]
    validateUniqueListenerBinds mappedWorld [] inbounds = .ok () ∧
      ¬ (inbounds.flatMap (boundSockets externals {} mappedWorld)).Pairwise
        fun left right => ¬ Overlap left right := by
  refine ⟨by rfl, fun hapart => ?_⟩
  exact (pairwise_cons.1 hapart).1 _ mem_cons_self ⟨rfl, rfl, .inl (by decide)⟩

end KeliCore
