import OsmoSmlc.Model.Sample
import OsmoSmlc.Service.Orderly
import OsmoSmlc.Service.Turn

/-! Every accepted location request gets one answer: what is told of it in a run, from its
acceptance to its cleanup, has one of four shapes. -/
namespace OsmoSmlc
open Osmo

/-- A response that holds only an LCS cause can be encoded. -/
def Io.EncodesCauses (io : Io) : Prop :=
  ∀ cause, io.bssapLeEnc (.bssmapLe (.performLocResp ⟨none, some cause⟩)) = true

/-- Either an estimate or a cause. -/
def PerformLocResp.Single (resp : PerformLocResp) : Prop :=
  resp.locationEstimate.isSome = !resp.lcsCause.isSome

theorem PerformLocResp.single_cause (cause : LcsCause) :
    (⟨none, some cause⟩ : PerformLocResp).Single := rfl

theorem PerformLocResp.single_estimate (raw : GadRaw) :
    (⟨some raw, none⟩ : PerformLocResp).Single := rfl

/-- What holds of an accepted request between two events. -/
structure World.Answered (w : World) (r : ReqPtr) : Prop where
  atMostOne : (responses r w.net.log).length ≤ 1
  due : (∀ q ∈ w.locReqs, q.ptr ≠ r) → .aborted ∉ toldOf r w.net.log →
    .discarded ∉ toldOf r w.net.log → (responses r w.net.log).length = 1
  single : ∀ resp ∈ responses r w.net.log, resp.Single
  silence : ∀ before after, toldOf r w.net.log = before ++ .cleanup :: after →
    ∀ c resp, .response c resp ∉ after
  pending : (∃ q ∈ w.locReqs, q.ptr = r) → (toldOf r w.net.log).count .cleanup = 0
  ended : (∀ q ∈ w.locReqs, q.ptr ≠ r) → (toldOf r w.net.log).count .cleanup = 1

/-- What can be told of a request that has ended. -/
inductive Finished : List Told → Prop
  | aborted (c : ConnPtr) : Finished [.accepted c, .aborted, .cleanup]
  | discarded (c : ConnPtr) : Finished [.accepted c, .discarded, .cleanup]
  | answered (c : ConnPtr) (resp : PerformLocResp) (h : resp.Single) :
      Finished [.accepted c, .response c resp, .cleanup]
  | atOnce (c : ConnPtr) (resp : PerformLocResp) (h : resp.Single) :
      Finished [.response c resp, .cleanup, .accepted c]

/-- What was told of every request so far. -/
structure Service.Told (a : Service) : Prop where
  fresh : ∀ r, a.next.req ≤ r → toldOf r a.net.log = []
  pending : ∀ s ∈ a.sessions, toldOf s.req a.net.log = [.accepted s.conn]
  finished : ∀ r < a.next.req, (∀ s ∈ a.sessions, s.req ≠ r) → Finished (toldOf r a.net.log)

namespace Effect

variable {L : Libosmo} {io : Io} {scu : Bool} {cells : CellStore} {s : Session}

theorem told_failed (hio : io.EncodesCauses) {cause : LcsCause} :
    (failed io scu s cause).told = [(s.req, .response s.conn ⟨none, some cause⟩)] := by
  rw [failed, told_sendCo (hio cause)]
  rfl

/-- The estimate, or the cause why there is none. -/
theorem told_gotTa (hio : io.EncodesCauses) {cellId : CellId} {ta : UInt8} :
    ∃ resp : PerformLocResp, resp.Single ∧
      (gotTa L io scu cells s cellId ta).told = [(s.req, .response s.conn resp)] := by
  unfold gotTa
  cases Net.estimate L cells cellId ta with
  | none => exact ⟨_, PerformLocResp.single_cause _, told_failed hio⟩
  | some raw =>
    dsimp only
    split
    · rename_i henc
      refine ⟨⟨some raw, none⟩, PerformLocResp.single_estimate raw, ?_⟩
      rw [told_sendCo henc]
      rfl
    · exact ⟨_, PerformLocResp.single_cause _, told_failed hio⟩

theorem told_answer (hio : io.EncodesCauses) (k : Ending) :
    ∃ t, (answer L io scu cells s k).told = [(s.req, t)] ∧
      Finished [.accepted s.conn, t, .cleanup] := by
  cases k with
  | locAbort => exact ⟨_, rfl, .aborted s.conn⟩
  | ta cellId ta =>
    obtain ⟨resp, hresp, htold⟩ := told_gotTa hio
    exact ⟨_, htold, .answered s.conn resp hresp⟩
  | failure cause =>
    exact ⟨_, told_failed hio, .answered s.conn _ (PerformLocResp.single_cause cause)⟩

end Effect

namespace Service

variable {L : Libosmo} {a a' : Service}

theorem init_told (scu : Bool) : (init scu).Told where
  fresh _ _ := rfl
  pending := by simp [init]
  finished := by simp [init]

/-- The newest request is numbered above all that were there before. -/
private theorem newest {n n' k : Nat} (hk : k = n) (hn : n' = n + 1) :
    (∀ r, n' ≤ r → k ≠ r ∧ n ≤ r) ∧ (∀ r, r < n → k ≠ r) ∧ (∀ r, r < n' → k ≠ r → r < n) := by
  refine ⟨?_, ?_, ?_⟩
  · intro r hr
    omega
  · intro r hr
    omega
  · intro r hr hne
    omega

/-- One event keeps what is told in shape. -/
theorem step_told {i : Input} (h : a.WF) (ht : a.Told) (hio : i.io.EncodesCauses)
    (ho : a.step L i = .ok a') : a'.Told := by
  have hlog := toldOf_step ho
  have hturn := step_turn h ho
  generalize (a.effect L i).told = told at hlog hturn
  cases hturn with
  | quiet hs hr =>
    simp only [ofReq_nil, List.append_nil] at hlog
    refine ⟨?_, ?_, ?_⟩
    · intro r hge
      rw [hlog]
      exact ht.fresh r (hr ▸ hge)
    · intro s hmem
      rw [hlog]
      exact ht.pending s (hs ▸ hmem)
    · intro r hlt hno
      rw [hlog]
      exact ht.finished r (hr ▸ hlt) (hs ▸ hno)
  | ended s k hmem hs hr =>
    obtain ⟨t, htold, hfin⟩ := Effect.told_answer (L := L) (s := s) hio k
    rw [htold] at hlog
    have hown : toldOf s.req a'.net.log = [.accepted s.conn, t, .cleanup] := by
      rw [hlog, ht.pending s hmem, ofReq_append, ofReq_cons_self, ofReq_cons_self]
      rfl
    have hother : ∀ r, s.req ≠ r → toldOf r a'.net.log = toldOf r a.net.log := by
      intro r hne
      rw [hlog, List.singleton_append, ofReq_cons_ne hne, ofReq_cons_ne hne, ofReq_nil,
        List.append_nil]
    have hleft : ∀ u ∈ a'.sessions, u ∈ a.sessions ∧ s.req ≠ u.req := by
      intro u hu
      rw [hs] at hu
      obtain ⟨hu, hne⟩ := KeyedList.mem_remove.mp hu
      refine ⟨hu, fun heq => hne ?_⟩
      rw [List.inj_on_of_nodup_map h.reqs hu hmem heq.symm]
    refine ⟨?_, ?_, ?_⟩
    · intro r hge
      rw [hr] at hge
      rw [hother r (Nat.ne_of_lt (Nat.lt_of_lt_of_le (h.reqBound s hmem) hge))]
      exact ht.fresh r hge
    · intro u hu
      rw [hother u.req (hleft u hu).2]
      exact ht.pending u (hleft u hu).1
    · intro r hlt hno
      by_cases hne : s.req = r
      · rw [← hne, hown]
        exact hfin
      · rw [hother r hne]
        apply ht.finished r (hr ▸ hlt)
        intro u hu heq
        refine hno u ?_ heq
        rw [hs]
        refine KeyedList.mem_remove.mpr ⟨hu, fun hconn => hne ?_⟩
        rw [← heq, List.inj_on_of_nodup_map h.conns hu hmem hconn]
  | discarded p hs hr =>
    have hsub : (a.sessions.filter fun s => s.peer = p).Sublist a.sessions := List.filter_sublist
    have hdisc := fun r => ofReq_discarded (r := r) (h.reqs.sublist (hsub.map Session.req))
    have hmem : ∀ u, u ∈ a.sessions.filter (fun s => s.peer = p) ↔ u ∈ a.sessions ∧ u.peer = p := by
      simp
    have hleft : ∀ u, u ∈ a'.sessions ↔ u ∈ a.sessions ∧ u.peer ≠ p := by
      rw [hs]
      simp
    refine ⟨?_, ?_, ?_⟩
    · intro r hge
      rw [hr] at hge
      rw [hlog, (hdisc r).2, List.append_nil]
      · exact ht.fresh r hge
      · intro u hu
        exact Nat.ne_of_lt (Nat.lt_of_lt_of_le (h.reqBound u ((hmem u).mp hu).1) hge)
    · intro u hu
      obtain ⟨hu, hup⟩ := (hleft u).mp hu
      rw [hlog, (hdisc u.req).2, List.append_nil]
      · exact ht.pending u hu
      · intro v hv heq
        obtain ⟨hv, hvp⟩ := (hmem v).mp hv
        exact hup (List.inj_on_of_nodup_map h.reqs hv hu heq ▸ hvp)
    · intro r hlt hno
      by_cases hex : ∃ u ∈ a.sessions.filter (fun s => s.peer = p), u.req = r
      · obtain ⟨u, hu, rfl⟩ := hex
        rw [hlog, ht.pending u ((hmem u).mp hu).1, (hdisc u.req).1 ⟨u, hu, rfl⟩]
        exact .discarded u.conn
      · have hnone : ∀ u ∈ a.sessions.filter (fun s => s.peer = p), u.req ≠ r :=
          fun u hu heq => hex ⟨u, hu, heq⟩
        rw [hlog, (hdisc r).2 hnone, List.append_nil]
        apply ht.finished r (hr ▸ hlt)
        intro u hu heq
        by_cases hup : u.peer = p
        · exact hnone u ((hmem u).mpr ⟨hu, hup⟩) heq
        · exact hno u ((hleft u).mpr ⟨hu, hup⟩) heq
  | opened s addr l2 hev hreq hs hr =>
    obtain ⟨hge, hold, hlt⟩ := newest hreq hr
    have hother : ∀ r, s.req ≠ r → toldOf r a'.net.log = toldOf r a.net.log := by
      intro r hne
      rw [hlog, ofReq_cons_ne hne, ofReq_nil, List.append_nil]
    refine ⟨?_, ?_, ?_⟩
    · intro r hr'
      rw [hother r (hge r hr').1]
      exact ht.fresh r (hge r hr').2
    · intro u hu
      rw [hs] at hu
      rcases List.mem_cons.mp hu with rfl | hu
      · rw [hlog, ht.fresh u.req (Nat.le_of_eq hreq.symm), ofReq_cons_self]
        rfl
      · rw [hother u.req (hold u.req (h.reqBound u hu))]
        exact ht.pending u hu
    · intro r hr' hno
      have hne : s.req ≠ r := hno s (hs ▸ List.mem_cons_self)
      rw [hother r hne]
      exact ht.finished r (hlt r hr' hne) fun u hu => hno u (hs ▸ List.mem_cons_of_mem s hu)
  | answered s ta addr l2 hev hreq hs hr =>
    obtain ⟨hge, hold, hlt⟩ := newest hreq hr
    obtain ⟨resp, hresp, htold⟩ := Effect.told_gotTa (L := L) (s := s) hio
    rw [htold] at hlog
    have hother : ∀ r, s.req ≠ r → toldOf r a'.net.log = toldOf r a.net.log := by
      intro r hne
      rw [hlog, List.singleton_append, ofReq_cons_ne hne, ofReq_cons_ne hne, ofReq_cons_ne hne,
        ofReq_nil, List.append_nil]
    refine ⟨?_, ?_, ?_⟩
    · intro r hr'
      rw [hother r (hge r hr').1]
      exact ht.fresh r (hge r hr').2
    · intro u hu
      rw [hs] at hu
      rw [hother u.req (hold u.req (h.reqBound u hu))]
      exact ht.pending u hu
    · intro r hr' hno
      by_cases hne : s.req = r
      · rw [← hne, hlog, ht.fresh s.req (Nat.le_of_eq hreq.symm), List.singleton_append,
          ofReq_cons_self, ofReq_cons_self, ofReq_cons_self]
        exact .atOnce s.conn resp hresp
      · rw [hother r hne]
        exact ht.finished r (hlt r hr' hne) (hs ▸ hno)

end Service

theorem Finished.answered_once {l : List Told} (h : Finished l) :
    (l.filterMap Told.response?).length ≤ 1 ∧
    (.aborted ∉ l → .discarded ∉ l → (l.filterMap Told.response?).length = 1) ∧
    (∀ resp ∈ l.filterMap Told.response?, resp.Single) ∧ l.count .cleanup = 1 := by
  cases h with
  | aborted c => simp [List.filterMap_cons, Told.response?]
  | discarded c => simp [List.filterMap_cons, Told.response?]
  | answered c resp h => simp [List.filterMap_cons, Told.response?, h]
  | atOnce c resp h => simp [List.filterMap_cons, Told.response?, h]

private theorem split_last {x y : Told} {before after : List Told} (hx : x ≠ .cleanup)
    (hy : y ≠ .cleanup) (h : [x, y, .cleanup] = before ++ .cleanup :: after) : after = [] := by
  rcases before with _ | ⟨b, _ | ⟨b', _ | ⟨b'', before⟩⟩⟩
  · exact absurd (List.cons.inj h).1 hx
  · exact absurd (List.cons.inj (List.cons.inj h).2).1 hy
  · exact (List.cons.inj (List.cons.inj (List.cons.inj h).2).2).2.symm
  · simp at h

/-- Nothing but the acceptance is told after the cleanup. -/
theorem Finished.silence {l before after : List Told} (h : Finished l)
    (heq : l = before ++ .cleanup :: after) : ∀ c resp, .response c resp ∉ after := by
  cases h with
  | aborted c =>
    have hafter : after = [] := split_last (by simp) (by simp) heq
    simp [hafter]
  | discarded c =>
    have hafter : after = [] := split_last (by simp) (by simp) heq
    simp [hafter]
  | answered c resp h =>
    have hafter : after = [] := split_last (by simp) (by simp) heq
    simp [hafter]
  | atOnce c resp h =>
    rcases before with _ | ⟨b, _ | ⟨b', _ | ⟨b'', before⟩⟩⟩
    · cases (List.cons.inj heq).1
    · have hafter : after = [.accepted c] := (List.cons.inj (List.cons.inj heq).2).2.symm
      simp [hafter]
    · simp at heq
    · simp at heq

/-- A response is told on the connection of the request. -/
theorem Finished.accepted {l : List Told} {c : ConnPtr} {resp : PerformLocResp} (h : Finished l)
    (hr : .response c resp ∈ l) : .accepted c ∈ l := by
  cases h with
  | aborted c' => simp at hr
  | discarded c' => simp at hr
  | answered c' resp' h =>
    have hc : c = c' := by simpa using (show c = c' ∧ resp = resp' by simpa using hr).1
    simp [hc]
  | atOnce c' resp' h =>
    have hc : c = c' := by simpa using (show c = c' ∧ resp = resp' by simpa using hr).1
    simp [hc]

section Answered

variable {a : Service} {r : ReqPtr} {c : ConnPtr}

theorem Service.Told.answered (ht : a.Told) (hacc : .accepted c ∈ toldOf r a.net.log) :
    a.world.Answered r := by
  have hreqs : (∃ q ∈ a.world.locReqs, q.ptr = r) ↔ ∃ s ∈ a.sessions, s.req = r := by
    simp [Service.world, Session.locReq]
  by_cases hp : ∃ s ∈ a.sessions, s.req = r
  · obtain ⟨s, hs, hsr⟩ := hp
    have htold : toldOf r a.world.net.log = [.accepted s.conn] := hsr ▸ ht.pending s hs
    obtain ⟨q, hq, hqr⟩ := hreqs.mpr ⟨s, hs, hsr⟩
    refine ⟨?_, fun hno => absurd hqr (hno q hq), ?_, ?_, ?_, fun hno => absurd hqr (hno q hq)⟩
    · simp [responses, htold, List.filterMap_cons, Told.response?]
    · simp [responses, htold, List.filterMap_cons, Told.response?]
    · intro before after heq
      have hc : Told.cleanup ∈ toldOf r a.world.net.log := by simp [heq]
      simp [htold] at hc
    · intro
      simp [htold]
  · have hno : ∀ s ∈ a.sessions, s.req ≠ r := fun s hs heq => hp ⟨s, hs, heq⟩
    have hlt : r < a.next.req := by
      by_contra hge
      rw [ht.fresh r (Nat.le_of_not_lt hge)] at hacc
      cases hacc
    have hfin : Finished (toldOf r a.world.net.log) := ht.finished r hlt hno
    obtain ⟨hle, hone, hsingle, hcount⟩ := hfin.answered_once
    exact ⟨hle, fun _ => hone, hsingle, fun _ _ => hfin.silence, fun hex => absurd (hreqs.mp hex) hp,
      fun _ => hcount⟩

theorem Service.Told.response_accepted {resp : PerformLocResp} (ht : a.Told)
    (hr : .response c resp ∈ toldOf r a.net.log) : .accepted c ∈ toldOf r a.net.log := by
  by_cases hlt : r < a.next.req
  · by_cases hp : ∃ s ∈ a.sessions, s.req = r
    · obtain ⟨s, hs, rfl⟩ := hp
      rw [ht.pending s hs] at hr
      simp at hr
    · exact (ht.finished r hlt fun s hs heq => hp ⟨s, hs, heq⟩).accepted hr
  · rw [ht.fresh r (Nat.le_of_not_lt hlt)] at hr
    cases hr

end Answered

/-- In every run, every accepted request is answered as it should be, and every response
is for an accepted request of its connection. -/
theorem run_answered (L : Libosmo) {scu : Bool} {is : List Input} {w : World}
    (hio : ∀ i ∈ is, i.io.EncodesCauses) (hr : run (step L) (World.init scu) is = .ok w) :
    (∀ r c pdu, .locReqAccepted r c pdu ∈ w.net.log → w.Answered r) ∧
    (∀ c req resp, .msgDownCo c req (.bssmapLe (.performLocResp resp)) ∈ w.net.log →
      ∃ r pdu, req = some r ∧ .locReqAccepted r c pdu ∈ w.net.log) := by
  have hreach : ReachableWorld L w := ⟨scu, is, hr⟩
  obtain ⟨a, ha, -, rfl⟩ := (run_init_world L).mp hr
  have hinv : a.WF ∧ a.Told := by
    refine run_invariant_of_meets (C := fun _ i => i.io.EncodesCauses)
      (I := fun a => a.WF ∧ Service.Told a) ?_ ⟨Service.init_wf scu, Service.init_told scu⟩
      (meets_of_forall fun i hi _ => hio i hi) ha
    rintro b i b' ⟨hb, ht⟩ hi hs
    exact ⟨Service.step_wf hb hs, Service.step_told hb ht hi hs⟩
  constructor
  · intro r c pdu hacc
    exact hinv.2.answered (mem_toldOf.mpr ⟨_, hacc, rfl⟩)
  · intro c req resp hresp
    obtain ⟨r, rfl⟩ := Option.isSome_iff_exists.mp (hreach.orderly _ hresp)
    have hacc := hinv.2.response_accepted (mem_toldOf.mpr ⟨_, hresp, rfl⟩)
    obtain ⟨act, hact, htold⟩ := mem_toldOf.mp hacc
    obtain ⟨pdu, rfl⟩ := Act.told_accepted htold
    exact ⟨r, pdu, rfl, hact⟩

/-- A request is answered after a TA Response, another one at once. -/
theorem run_answered_two :
    let is : List Input := [Sample.resetFrom Sample.addrA, Sample.connect 1 Sample.addrA Sample.msgRequestA,
      Sample.connect 2 Sample.addrA Sample.msgRequestTaA, Sample.data 1 Sample.msgTaResponse]
    (Sample.after is).Answered 0 ∧ (Sample.after is).Answered 1 ∧
    responses 0 (Sample.after is).net.log = [⟨none, some .facilityNotsupp⟩] := by
  intro is
  have hio : ∀ i ∈ is, i.io.EncodesCauses := by
    intro i hi cause
    simp only [is, List.mem_cons, List.not_mem_nil, or_false] at hi
    rcases hi with rfl | rfl | rfl | rfl <;> rfl
  have hrun := run_answered Sample.libosmo hio (Sample.run_after (by decide +kernel : Sample.survives is = true))
  refine ⟨hrun.1 0 0 (Sample.request Sample.imsiA) ?_,
    hrun.1 1 1 (Sample.requestTa Sample.imsiA 1) ?_, ?_⟩
  · decide +kernel
  · decide +kernel
  · decide +kernel

end OsmoSmlc
