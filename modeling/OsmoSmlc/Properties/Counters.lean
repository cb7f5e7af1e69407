import OsmoSmlc.Model.Sample
import OsmoSmlc.Service.NetPath

/-! The counters tell what has happened: each one agrees with the record, and every message
that was handed down had been encoded, into a buffer of its own. -/
namespace OsmoSmlc
open Osmo

/-! The acts that the counters count. -/

def Act.isRequest : Act → Bool
  | .locReqRx _ _ => true
  | _ => false

def Act.isEncoded : Act → Bool
  | .bssapLeEnc _ (some _) => true
  | _ => false

/-- A message is handed down, and the result is of a kind. -/
def Act.isDown (kind : Int → Bool) : Act → Bool
  | .sapDown _ _ rc => kind rc
  | _ => false

def Act.downMsgb? : Act → Option MsgbPtr
  | .sapDown _ msg _ => some msg
  | _ => none

/-- The counters and the record agree. -/
structure Net.Tally (n : Net) : Prop where
  requests : n.ctrs.rxDt1PerformLocationRequest = n.log.countP Act.isRequest
  success : n.ctrs.txSuccess = n.log.countP (Act.isDown fun rc => 0 ≤ rc)
  errSend : n.ctrs.txErrSend = n.log.countP (Act.isDown fun rc => rc < 0)
  encoded : n.ctrs.txSuccess + n.ctrs.txErrSend + n.ctrs.txErrConnNotReady
    = n.log.countP Act.isEncoded
  bound : n.scu = true → n.ctrs.txErrConnNotReady = 0
  unbound : n.scu = false → n.log.countP (Act.isDown fun _ => true) = 0
  downs : ∀ req msg rc, .sapDown req msg rc ∈ n.log → .bssapLeEnc req.pdu (some msg) ∈ n.log
  msgbs : (n.log.filterMap Act.downMsgb?).Nodup ∧ ∀ msg ∈ n.log.filterMap Act.downMsgb?, msg < n.nextMsgb

namespace Net

variable {io : Io} {n n' : Net} {a : Act} {acts : List Act} {req : ScuReq}

/-! Acts that go with no counter count nowhere. -/

theorem still_requests (h : ∀ a ∈ acts, a.still = true) : acts.countP Act.isRequest = 0 := by
  refine List.countP_eq_zero.mpr fun a ha => ?_
  have hs := h a ha
  cases a <;> simp_all [Act.still, Act.isRequest]

theorem still_encoded (h : ∀ a ∈ acts, a.still = true) : acts.countP Act.isEncoded = 0 := by
  refine List.countP_eq_zero.mpr fun a ha => ?_
  have hs := h a ha
  cases a <;> simp_all [Act.still, Act.isEncoded]

theorem still_downs (h : ∀ a ∈ acts, a.still = true) (kind : Int → Bool) :
    acts.countP (Act.isDown kind) = 0 := by
  refine List.countP_eq_zero.mpr fun a ha => ?_
  have hs := h a ha
  cases a <;> simp_all [Act.still, Act.isDown]

theorem still_msgbs (h : ∀ a ∈ acts, a.still = true) : acts.filterMap Act.downMsgb? = [] := by
  refine List.filterMap_eq_nil_iff.mpr fun a ha => ?_
  have hs := h a ha
  cases a <;> simp_all [Act.still, Act.downMsgb?]

theorem sendDown_unbound (henc : io.bssapLeEnc req.pdu = true) (hscu : n.scu = false) :
    n.sendDown io req acts = { n with
      ctrs.txErrConnNotReady := n.ctrs.txErrConnNotReady + 1
      nextMsgb := n.nextMsgb + 1
      log := n.log ++ .bssapLeEnc req.pdu (some n.nextMsgb) :: acts } := by
  simp [sendDown, bssapLeEnc, henc, sccpLbSapDown, hscu, Net.emit]

theorem sendDown_bound (henc : io.bssapLeEnc req.pdu = true) (hscu : n.scu = true) :
    n.sendDown io req acts = { n with
      ctrs := if 0 ≤ io.sapDown req then { n.ctrs with txSuccess := n.ctrs.txSuccess + 1 }
        else { n.ctrs with txErrSend := n.ctrs.txErrSend + 1 }
      nextMsgb := n.nextMsgb + 1
      log := n.log ++ (.bssapLeEnc req.pdu (some n.nextMsgb) :: acts
        ++ [.sapDown req n.nextMsgb (io.sapDown req)]) } := by
  by_cases hrc : 0 ≤ io.sapDown req
  · simp [sendDown, bssapLeEnc, henc, sccpLbSapDown, hscu, Net.emit, hrc]
  · simp [sendDown, bssapLeEnc, henc, sccpLbSapDown, hscu, Net.emit, hrc]

/-- What a step records and what it counts. -/
structure Counts (n : Net) (l : List Act) (n' : Net) : Prop where
  log : n'.log = n.log ++ l
  scu : n'.scu = n.scu
  requests : n'.ctrs.rxDt1PerformLocationRequest
    = n.ctrs.rxDt1PerformLocationRequest + l.countP Act.isRequest
  success : n'.ctrs.txSuccess = n.ctrs.txSuccess + l.countP (Act.isDown fun rc => 0 ≤ rc)
  errSend : n'.ctrs.txErrSend = n.ctrs.txErrSend + l.countP (Act.isDown fun rc => rc < 0)
  encoded : l.countP Act.isEncoded + n.ctrs.txErrConnNotReady
    = n'.ctrs.txErrConnNotReady + l.countP (Act.isDown fun rc => 0 ≤ rc)
      + l.countP (Act.isDown fun rc => rc < 0)
  bound : n.scu = true → n'.ctrs.txErrConnNotReady = n.ctrs.txErrConnNotReady
  unbound : n.scu = false → l.countP (Act.isDown fun _ => true) = 0
  downs : ∀ req msg rc, .sapDown req msg rc ∈ l → .bssapLeEnc req.pdu (some msg) ∈ l
  msgbs : l.filterMap Act.downMsgb? = [] ∧ n.nextMsgb ≤ n'.nextMsgb ∨
    l.filterMap Act.downMsgb? = [n.nextMsgb] ∧ n'.nextMsgb = n.nextMsgb + 1

theorem Counts.tally {l : List Act} (hc : Counts n l n') (h : n.Tally) : n'.Tally where
  requests := by rw [hc.log, List.countP_append, hc.requests, h.requests]
  success := by rw [hc.log, List.countP_append, hc.success, h.success]
  errSend := by rw [hc.log, List.countP_append, hc.errSend, h.errSend]
  encoded := by
    have hold := h.encoded
    have hnew := hc.encoded
    rw [hc.log, List.countP_append, hc.success, hc.errSend]
    omega
  bound hscu := (hc.bound (hc.scu ▸ hscu)).trans (h.bound (hc.scu ▸ hscu))
  unbound hscu := by
    rw [hc.log, List.countP_append, h.unbound (hc.scu ▸ hscu), hc.unbound (hc.scu ▸ hscu)]
  downs req msg rc hmem := by
    rw [hc.log] at hmem ⊢
    exact List.mem_append.mpr ((List.mem_append.mp hmem).imp (h.downs req msg rc) (hc.downs req msg rc))
  msgbs := by
    obtain ⟨hnd, hlt⟩ := h.msgbs
    rw [hc.log, List.filterMap_append]
    rcases hc.msgbs with ⟨hnil, hle⟩ | ⟨hone, hnext⟩
    · rw [hnil, List.append_nil]
      exact ⟨hnd, fun msg hm => Nat.lt_of_lt_of_le (hlt msg hm) hle⟩
    · rw [hone, hnext]
      refine ⟨List.nodup_append.mpr ⟨hnd, List.nodup_singleton _, ?_⟩, fun msg hm => ?_⟩
      · intro x hx y hy heq
        rw [List.mem_singleton.mp hy] at heq
        exact Nat.ne_of_lt (hlt x hx) heq
      · rcases List.mem_append.mp hm with hm | hm
        · exact Nat.lt_succ_of_lt (hlt msg hm)
        · rw [List.mem_singleton.mp hm]
          exact Nat.lt_succ_self _

/-- Recording acts that nothing goes with. -/
theorem counts_still (hacts : ∀ a ∈ acts, a.still = true) (hlog : n'.log = n.log ++ acts)
    (hscu : n'.scu = n.scu) (hctrs : n'.ctrs = n.ctrs) (hnext : n.nextMsgb ≤ n'.nextMsgb) :
    Counts n acts n' where
  log := hlog
  scu := hscu
  requests := by rw [hctrs, still_requests hacts, Nat.add_zero]
  success := by rw [hctrs, still_downs hacts _, Nat.add_zero]
  errSend := by rw [hctrs, still_downs hacts _, Nat.add_zero]
  encoded := by
    rw [hctrs, still_encoded hacts, still_downs hacts, still_downs hacts]
    exact Nat.zero_add _
  bound _ := by rw [hctrs]
  unbound _ := still_downs hacts _
  downs req msg rc hmem := absurd (hacts _ hmem) (by simp [Act.still])
  msgbs := .inl ⟨still_msgbs hacts, hnext⟩

theorem Step.counts (h : Step io n n') : ∃ l, Counts n l n' := by
  cases h with
  | emit ha => exact ⟨[_], counts_still (by simpa using ha) rfl rfl rfl (Nat.le_refl _)⟩
  | takeMsgb =>
    exact ⟨[], counts_still (by simp) (by simp [Net.takeMsgb]) rfl rfl (Nat.le_succ _)⟩
  | request c st =>
    refine ⟨[.locReqRx c st], ⟨rfl, rfl, rfl, rfl, rfl, ?_, fun _ => rfl, fun _ => rfl, ?_, ?_⟩⟩
    · simp [Act.isEncoded, Act.isDown, Net.emit, Net.countRequest]
    · simp
    · exact .inl ⟨rfl, Nat.le_refl _⟩
  | @unsent pdu henc =>
    have hn : (n.bssapLeEnc io pdu).2 = n.emit (.bssapLeEnc pdu none) := by
      simp [bssapLeEnc, henc]
    rw [hn]
    refine ⟨[.bssapLeEnc pdu none], ⟨rfl, rfl, rfl, rfl, rfl, ?_, fun _ => rfl, fun _ => rfl, ?_, ?_⟩⟩
    · simp [Act.isEncoded, Act.isDown, Net.emit]
    · simp
    · exact .inl ⟨rfl, Nat.le_refl _⟩
  | @sent req acts henc hacts =>
    have hreq := still_requests hacts
    have hencs := still_encoded hacts
    have hdown := still_downs hacts
    have hmem : ∀ req' msg rc, .sapDown req' msg rc ∉ acts := by
      intro req' msg rc hm
      exact absurd (hacts _ hm) (by simp [Act.still])
    let enc : Act := .bssapLeEnc req.pdu (some n.nextMsgb)
    have hnone : (enc :: acts).filterMap Act.downMsgb? = [] := by
      simpa [enc, Act.downMsgb?] using still_msgbs hacts
    cases hscu : n.scu with
    | false =>
      refine ⟨enc :: acts, ?_⟩
      rw [sendDown_unbound henc hscu]
      refine ⟨rfl, rfl, ?_, ?_, ?_, ?_, fun h => ?_, fun _ => ?_, fun req' msg rc hm => ?_,
        .inl ⟨hnone, Nat.le_succ _⟩⟩
      · simp [hreq, enc, Act.isRequest]
      · simp [hdown, enc, Act.isDown]
      · simp [hdown, enc, Act.isDown]
      · simp [List.countP_cons, hencs, hdown, enc, Act.isEncoded, Act.isDown, Nat.add_comm]
      · cases hscu.symm.trans h
      · simp [hdown, enc, Act.isDown]
      · rcases List.mem_cons.mp hm with hm | hm
        · simp [enc] at hm
        · exact absurd hm (hmem req' msg rc)
    | true =>
      let down : Act := .sapDown req n.nextMsgb (io.sapDown req)
      have hone : (enc :: acts ++ [down]).filterMap Act.downMsgb? = [n.nextMsgb] := by
        rw [List.filterMap_append, hnone]
        rfl
      refine ⟨enc :: acts ++ [down], ?_⟩
      rw [sendDown_bound henc hscu]
      refine ⟨rfl, rfl, ?_, ?_, ?_, ?_, fun _ => ?_, fun h => ?_, fun req' msg rc hm => ?_,
        .inr ⟨hone, rfl⟩⟩
      · by_cases hrc : 0 ≤ io.sapDown req
        · simp [hreq, hrc, enc, down, Act.isRequest]
        · simp [hreq, hrc, enc, down, Act.isRequest]
      · by_cases hrc : 0 ≤ io.sapDown req
        · simp [hdown, hrc, enc, down, Act.isDown]
        · simp [hdown, hrc, enc, down, Act.isDown]
      · by_cases hrc : 0 ≤ io.sapDown req
        · simp [hdown, hrc, enc, down, Act.isDown]
        · simp [hdown, hrc, Int.not_le.mp hrc, enc, down, Act.isDown]
      · by_cases hrc : 0 ≤ io.sapDown req
        · simp [List.countP_cons, hencs, hdown, hrc, enc, down, Act.isEncoded, Act.isDown,
            Nat.add_comm]
        · simp [List.countP_cons, hencs, hdown, hrc, Int.not_le.mp hrc, enc, down,
            Act.isEncoded, Act.isDown, Nat.add_comm]
      · by_cases hrc : 0 ≤ io.sapDown req
        · simp [hrc]
        · simp [hrc]
      · cases hscu.symm.trans h
      · rcases List.mem_append.mp hm with hm | hm
        · rcases List.mem_cons.mp hm with hm | hm
          · simp [enc] at hm
          · exact absurd hm (hmem req' msg rc)
        · have heq : Act.sapDown req' msg rc = .sapDown req n.nextMsgb (io.sapDown req) :=
            List.mem_singleton.mp hm
          cases heq
          exact List.mem_append_left _ List.mem_cons_self

end Net

/-- Whatever has happened, the counters are what the record says: each Perform Location
Request is counted, and each encoded message as sent, refused, or lost without an SCCP user;
each message that was handed down was encoded into a buffer of its own. -/
theorem counters_tally (L : Libosmo) {w : World} (h : ReachableWorld L w) : w.net.Tally := by
  obtain ⟨scu, a, ⟨is, hr⟩, -, rfl⟩ := h.service
  refine Service.run_net hr (I := Net.Tally) ?_ ?_
  · intro io n n' hs ht
    obtain ⟨l, hc⟩ := hs.counts
    exact hc.tally ht
  · constructor
    all_goals simp [Service.init, World.init]

theorem counters_tally_two : (Sample.after Sample.twoConns).net.Tally :=
  counters_tally Sample.libosmo (Sample.reachable (by decide +kernel))

end OsmoSmlc
