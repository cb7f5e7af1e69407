import OsmoSmlc.Model.Sample
import OsmoSmlc.Service.Buffers
import OsmoSmlc.Service.Objects

/-! Every message buffer is freed once, unless the acknowledgement of a RESET is not taken: then
the buffer of the RESET is freed twice and that of the acknowledgement is lost. -/
namespace OsmoSmlc
open Osmo

/-- The received buffer is freed once and last, and what was encoded once, after it was sent. -/
structure World.FreesBuffers (w w' : World) : Prop where
  received : (newActs w w').count (.msgbFree w.net.nextMsgb) = 1
  last : (newActs w w').getLast? = some (.msgbFree w.net.nextMsgb)
  encoded : ∀ pdu msg, .bssapLeEnc pdu (some msg) ∈ newActs w w' →
    (newActs w w').count (.msgbFree msg) = 1 ∧
    ∃ before after, newActs w w' = before ++ .msgbFree msg :: after ∧
      ∀ req rc, .sapDown req msg rc ∉ after

/-- A RESET comes in, and its acknowledgement is encoded but not taken by the SCCP layer. -/
def World.AckRefused (L : Libosmo) (w : World) (io : Io) (prim : ScuInd) : Prop :=
  ∃ addr l2, prim = .nUnitdata addr l2 ∧ L.bssmapLeMsgt l2 = .reset ∧
    io.bssapLeEnc (.bssmapLe .resetAck) = true ∧
    ¬(w.net.scu = true ∧
      io.sapDown (.nUnitdata (w.peerOf L addr).peerAddr (.bssmapLe .resetAck)) = 0)

section Resource

variable {acts : List Act} {msg : MsgbPtr}

theorem Act.resource_release {a : Act} : a.resource = .release msg ↔ a = .msgbFree msg := by
  cases a with
  | bssapLeEnc pdu o => cases o <;> simp [Act.resource]
  | _ => simp [Act.resource]

theorem count_release : (acts.map Act.resource).count (.release msg) = acts.count (.msgbFree msg) := by
  rw [List.count, List.countP_map, List.count]
  apply List.countP_congr
  intro a _
  simpa using Act.resource_release

/-- What holds of the resources holds of the buffers. -/
theorem released_acts (h : Resource.ReleasedOnce msg (acts.map Act.resource)) :
    acts.count (.msgbFree msg) = 1 ∧
    ∃ before after, acts = before ++ .msgbFree msg :: after ∧
      ∀ req rc, .sapDown req msg rc ∉ after := by
  obtain ⟨honce, before, after, heq, hafter⟩ := h
  refine ⟨count_release.symm.trans honce, ?_⟩
  obtain ⟨before', rest, rfl, rfl, hrest⟩ := List.map_eq_append_iff.mp heq
  obtain ⟨a, after', rfl, ha, rfl⟩ := List.map_eq_cons_iff.mp hrest
  refine ⟨before', after', by rw [Act.resource_release.mp ha], fun req rc hmem => hafter ?_⟩
  exact List.mem_map.mpr ⟨_, hmem, rfl⟩

end Resource

namespace Net

/-- An acknowledgement that is not taken: the RESET is freed in its place. -/
theorem sendResetAck_refused {io : Io} {n : Net} {addr : SccpAddr} {rx : MsgbPtr}
    (henc : io.bssapLeEnc (.bssmapLe .resetAck) = true)
    (hno : ¬(n.scu = true ∧ io.sapDown (.nUnitdata addr (.bssmapLe .resetAck)) = 0)) :
    ∃ acts, (n.sendResetAck io addr rx).2.log = n.log ++ acts ++ [.msgbFree rx] := by
  unfold sendResetAck
  rcases bssapLeEnc_cases io (.bssmapLe .resetAck) n with ⟨-, msg, n', h, hd⟩ | ⟨hno', -⟩
  · rw [h]
    have hrc : (n'.sccpLbSapDown io (.nUnitdata addr (.bssmapLe .resetAck)) msg).1 ≠ 0 := by
      rw [sccpLbSapDown_rc, hd.scu]
      split
      · rename_i hscu
        exact fun hzero => hno ⟨hscu, hzero⟩
      · decide
    obtain ⟨acts, hlog, -⟩ := hd.log
    obtain ⟨-, sent, hsent, -⟩ :=
      sccpLbSapDown_uses io (.nUnitdata addr (.bssmapLe .resetAck)) msg n'
    dsimp only
    rw [if_pos hrc]
    refine ⟨acts ++ sent, ?_⟩
    show (n'.sccpLbSapDown io _ msg).2.log ++ [.msgbFree rx] = _
    rw [hsent, hlog, List.append_assoc n.log]
  · cases henc.symm.trans hno'

end Net

namespace Service

variable {L : Libosmo} {io : Io} {a a' : Service} {prim : ScuInd}

theorem ackTaken_of_not (h : ¬a.world.AckRefused L io prim) : AckTaken L io a prim := by
  cases prim with
  | nUnitdata addr l2 =>
    intro hm henc
    by_contra hno
    refine h ⟨addr, l2, rfl, hm, henc, ?_⟩
    rw [peerOf_world]
    exact hno
  | _ => trivial

theorem ackTaken_setNet {n : Net} (hscu : n.scu = a.net.scu) (h : AckTaken L io a prim) :
    AckTaken L io (a.setNet n) prim := by
  cases prim with
  | nUnitdata addr l2 =>
    intro hm henc
    rw [peer_setNet]
    exact ⟨hscu.trans (h hm henc).1, (h hm henc).2⟩
  | _ => trivial

/-- The record of a primitive ends with the release of its buffer. -/
theorem step_freed (ho : a.step L ⟨.scu prim, io⟩ = .ok a') :
    ∃ c, (a.setNet a.net.takeMsgb).rxPrim L io a.net.nextMsgb prim = .ok c ∧
      a' = c.emit (.msgbFree a.net.nextMsgb) := by
  simp only [step, handle] at ho
  split at ho
  · rename_i c hc
    cases ho
    exact ⟨c, hc, rfl⟩
  · cases ho

theorem step_frees (hack : AckTaken L io a prim) (ho : a.step L ⟨.scu prim, io⟩ = .ok a') :
    a.world.FreesBuffers a'.world := by
  obtain ⟨c, hc, rfl⟩ := step_freed ho
  have hscu : a.net.takeMsgb.scu = a.net.scu := rfl
  obtain ⟨acts, hlog, hb⟩ := rxPrim_balances (ackTaken_setNet hscu hack) hc
  let rx := a.net.nextMsgb
  have hb' : Resource.Balanced (rx + 1) (acts.map Act.resource) c.net.nextMsgb := hb
  have hnew : newActs a.world (c.emit (.msgbFree rx)).world = acts ++ [.msgbFree rx] := by
    apply newActs_eq
    show c.net.log ++ [.msgbFree rx] = a.net.log ++ (acts ++ [.msgbFree rx])
    rw [hlog, List.append_assoc]
    rfl
  have hrx : acts.count (.msgbFree rx) = 0 := by
    apply List.count_eq_zero.mpr
    intro hmem
    have hname := hb'.names (List.mem_map.mpr ⟨_, hmem, rfl⟩) rfl
    omega
  have hworld : a.world.net.nextMsgb = rx := rfl
  refine ⟨?_, ?_, ?_⟩
  · rw [hnew, hworld, List.count_append, hrx]
    simp
  · rw [hnew, hworld]
    simp
  · intro pdu msg hmem
    rw [hnew] at hmem ⊢
    have hacts : .bssapLeEnc pdu (some msg) ∈ acts := by simpa using hmem
    have htake : Resource.take msg ∈ acts.map Act.resource := List.mem_map.mpr ⟨_, hacts, rfl⟩
    have hne : rx ≠ msg := Nat.ne_of_lt (hb'.names htake rfl).1
    obtain ⟨honce, before, after, heq, hafter⟩ := released_acts (hb'.released htake)
    refine ⟨?_, before, after ++ [.msgbFree rx], by simp [heq], ?_⟩
    · rw [List.count_append, honce]
      simp [hne]
    · simpa using hafter

theorem step_loses (hno : a.world.AckRefused L io prim)
    (ho : a.step L ⟨.scu prim, io⟩ = .ok a') :
    2 ≤ (newActs a.world a'.world).count (.msgbFree a.net.nextMsgb) := by
  obtain ⟨c, hc, rfl⟩ := step_freed ho
  obtain ⟨addr, l2, rfl, hm, henc, hno⟩ := hno
  let rx := a.net.nextMsgb
  let x := (a.peer L addr).1
  let b := ((a.peer L addr).2.setNet ((a.net.takeMsgb.emit
    (.peerDispatch x.ptr x.fi.state .msgUpCl)).emit (.peerDispatch x.ptr x.fi.state .rxReset)))
  have hcd : c = (b.discardAll x.ptr).ackReset io x rx := by
    simp only [rxPrim, unitdata, peer_setNet, hm] at hc
    cases hc
    rfl
  have hup : a.net.takeMsgb.Balances b.net := (Net.emit_balances rfl).emit rfl
  have hdis : b.net.Balances (b.discardAll x.ptr).net := Net.discardAll_balances _
  obtain ⟨acts, hlog, -⟩ := hup.trans hdis
  have hdoes : b.net.Does _ (b.discardAll x.ptr).net := Net.discardAll_does _
  have hscu : (b.discardAll x.ptr).net.scu = a.net.scu := hdoes.scu
  have hno' : ¬((b.discardAll x.ptr).net.scu = true ∧
      io.sapDown (.nUnitdata x.peerAddr (.bssmapLe .resetAck)) = 0) := by
    rw [peerOf_world] at hno
    rw [hscu]
    exact hno
  obtain ⟨ack, hack⟩ : ∃ ack, (b.discardAll x.ptr).net.sendResetAck io x.peerAddr rx |>.2.log
      = (b.discardAll x.ptr).net.log ++ ack ++ [.msgbFree rx] := Net.sendResetAck_refused henc hno'
  have hnew : newActs a.world (c.emit (.msgbFree rx)).world
      = acts ++ ack ++ [.msgbFree rx] ++ [.msgbFree rx] := by
    apply newActs_eq
    show c.net.log ++ [.msgbFree rx] = a.net.log ++ _
    have hcn : c.net.log = _ := (congrArg (fun d => d.net.log) hcd).trans hack
    rw [hcn, hlog]
    simp [Net.takeMsgb]
  rw [hnew, List.count_append, List.count_append]
  simp only [rx, List.count_singleton_self]
  omega

end Service

/-- The buffers of a primitive are freed as they should be exactly where no acknowledgement of a
RESET is refused. -/
theorem buffers_freed_iff (L : Libosmo) {w w' : World} {prim : ScuInd} {io : Io}
    (hw : ReachableWorld L w) (hs : step L w ⟨.scu prim, io⟩ = .ok w') :
    w.FreesBuffers w' ↔ ¬w.AckRefused L io prim := by
  obtain ⟨-, a, -, h, rfl⟩ := hw.service
  obtain ⟨a', hr⟩ := step_record L h hs
  obtain rfl := hr.world
  refine ⟨fun hf hno => ?_, fun hno => Service.step_frees (Service.ackTaken_of_not hno) hr.step⟩
  have hle := Service.step_loses hno hr.step
  have hone : (newActs a.world a'.world).count (.msgbFree a.net.nextMsgb) = 1 := hf.received
  omega

/-- A RESET whose acknowledgement is sent, and one whose acknowledgement is not. -/
theorem buffers_freed_iff_two :
    (World.init true).FreesBuffers (Sample.after [Sample.resetFrom Sample.addrA]) ∧
    ∃ w', step Sample.libosmo (World.init true)
        ⟨.scu (.nUnitdata Sample.addrA Sample.msgReset), Sample.ioRefusing⟩ = .ok w' ∧
      ¬(World.init true).FreesBuffers w' := by
  have hw : ReachableWorld Sample.libosmo (World.init true) := ⟨true, [], rfl⟩
  have hs : step Sample.libosmo (World.init true) (Sample.resetFrom Sample.addrA)
      = .ok (Sample.after [Sample.resetFrom Sample.addrA]) := by decide +kernel
  refine ⟨(buffers_freed_iff Sample.libosmo hw hs).mpr ?_, ?_⟩
  · rintro ⟨addr, l2, -, -, -, hno⟩
    exact hno ⟨rfl, rfl⟩
  · obtain ⟨w', hs'⟩ : ∃ w', step Sample.libosmo (World.init true)
        ⟨.scu (.nUnitdata Sample.addrA Sample.msgReset), Sample.ioRefusing⟩ = .ok w' := ⟨_, rfl⟩
    refine ⟨w', hs', fun hf => (buffers_freed_iff Sample.libosmo hw hs').mp hf ?_⟩
    exact ⟨Sample.addrA, Sample.msgReset, rfl, by decide, rfl, fun h => absurd h.2 (by decide)⟩

/-- A RESET whose acknowledgement the SCCP layer refuses is freed twice. -/
theorem buffers_freed_twice :
    ¬ ∀ L w w' prim io, ReachableWorld L w → step L w ⟨.scu prim, io⟩ = .ok w' →
      w.FreesBuffers w' := by
  intro h
  let prim : ScuInd := .nUnitdata Sample.addrA Sample.msgReset
  let w := World.init true
  let w' := Sample.after [⟨.scu prim, Sample.ioRefusing⟩]
  have hs : step Sample.libosmo w ⟨.scu prim, Sample.ioRefusing⟩ = .ok w' := by decide +kernel
  have hf := h Sample.libosmo w w' prim Sample.ioRefusing ⟨true, [], rfl⟩ hs
  have htwo : (newActs w w').count (.msgbFree w.net.nextMsgb) = 2 := by decide +kernel
  cases htwo.symm.trans hf.received

end OsmoSmlc
