import P2PNode.Dispatch.LoadRoundTrip
import P2PNode.Dispatch.Routing

/-!
# Nodes whose load is unknown

`dispatch` among nodes that may fail to read their load, and peers that may not answer. A failed
reading counts as the percentage 0, a silent peer as `10 ^ 9`. The task goes to the first of the
nodes that count least, whether their load is known or not.
-/

namespace P2PNode

open Effect

/-! ### The nodes -/

/-- What `load_get` can read: a load that is not negative, or nothing; the counter has 32 bits. -/
structure LoadReading.Sound (l : LoadReading) : Prop where
  load : ∀ l1 l5 l15, l.loadavg = .values l1 l5 l15 → ∃ q : ℚ, 0 ≤ q ∧ l1 = .fin q
  active : l.active < 2 ^ 32

/-- The percentage, if the load could be read. -/
def LoadReading.known (l : LoadReading) : Option ExtRat :=
  match l.loadavg with
  | .values _ _ _ => some l.percentage
  | _             => none

/-- The bits of a `float`. -/
structure FloatBits where
  bits : ExtRat → ℕ
  lt : ∀ x, bits x < 2 ^ 32
  zero : ExtRat.ofBits (bits (.fin 0)) = .fin 0
  percent : ∀ q : ℚ, 0 ≤ q → q ≤ 100 → ∃ r : ℚ, 0 ≤ r ∧ ExtRat.ofBits (bits (.fin q)) = .fin r

/-- A peer of the snapshot with its own load, and what becomes of the query to it: it answers as
its responder does, or gives no usable answer. -/
structure PeerNode (B : FloatBits) where
  info : PeerInfo
  reading : LoadReading
  total : ℕ
  outcome : Outcome
  sound : reading.Sound
  total_lt : total < 2 ^ 32
  answer : outcome = .datagram (loadRespPacket (Responder.mk reading total B.bits).resp) ∨
    outcome.response = none

/-- A node as `dispatch` sees it: its load if it could be read, its active tasks and its score. -/
structure Candidate where
  ip : Bytes
  load : Option ExtRat
  active : ℕ
  score : ℚ
  deriving DecidableEq

/-- This node. -/
def LoadReading.candidate (l : LoadReading) (local_ip : Bytes) : Candidate where
  ip := local_ip
  load := l.known
  active := l.active
  score := l.percentage.toRat + 10 * l.active

/-- A peer; the load of a peer that gives no usable answer is unknown. -/
def PeerNode.candidate {B : FloatBits} (p : PeerNode B) : Candidate where
  ip := p.info.ip
  load := if p.outcome.response.isSome then p.reading.known else none
  active := p.reading.active
  score :=
    if p.outcome.response.isSome then
      (ExtRat.ofBits (B.bits p.reading.percentage)).toRat + 10 * p.reading.active
    else 10 ^ 9

/-- The start value of the loop over the snapshot; no node has its address. -/
def startCandidate : Candidate := ⟨[], none, 0, 10 ^ 10⟩

/-- This node and its peers, at distinct addresses. -/
structure Fleet where
  B : FloatBits
  local_ip : Bytes
  own : LoadReading
  peers : List (PeerNode B)
  own_sound : own.Sound
  distinct : (local_ip :: peers.map fun p => p.info.ip).Nodup
  named : [] ∉ local_ip :: peers.map fun p => p.info.ip

namespace Fleet

variable (F : Fleet)

/-- The nodes, this one first. -/
def nodes : List Candidate := F.own.candidate F.local_ip :: F.peers.map PeerNode.candidate

/-- The candidates in the order in which the first of the least wins. -/
def order : List Candidate :=
  F.own.candidate F.local_ip ::
    if F.peers.isEmpty then [] else startCandidate :: F.peers.map PeerNode.candidate

/-- The host with these nodes. -/
def on (sc : Scene) : Scene :=
  { sc with asked := F.peers.map fun p => (p.info, p.outcome), own := F.own }

/-- The law: a node whose load is unknown does not get the task when the load of another one is
known to be below 100 and the other has no more active tasks. -/
def UnknownNotPreferred (target : Option Bytes) : Prop :=
  ∀ u ∈ F.nodes, u.load = none → ∀ c ∈ F.nodes, ∀ pct, c.load = some pct → pct < .fin 100 →
    c.active ≤ u.active → target ≠ some u.ip

end Fleet

/-! ### Percentages -/

lemma LoadReading.Sound.percentage {l : LoadReading} (h : l.Sound) :
    ∃ q : ℚ, 0 ≤ q ∧ q ≤ 100 ∧ l.percentage = .fin q := by
  rw [LoadReading.percentage]
  cases hl : l.loadavg with
  | noFile => exact ⟨0, le_rfl, by norm_num, rfl⟩
  | badFormat => exact ⟨0, le_rfl, by norm_num, rfl⟩
  | values l1 l5 l15 =>
    obtain ⟨q, hq, rfl⟩ := h.load l1 l5 l15 hl
    obtain ⟨p, hp⟩ : ∃ p : ℚ, p = q * (1 / l.coreCount) * 100 := ⟨_, rfl⟩
    have hpos : 0 ≤ p := by
      have hcores : (0 : ℚ) ≤ 1 / l.coreCount := one_div_nonneg.2 (Nat.cast_nonneg _)
      rw [hp]
      exact mul_nonneg (mul_nonneg hq hcores) (by norm_num)
    simp only [ExtRat.scale_fin, ← hp, atMostHundred]
    by_cases hcut : ExtRat.fin 100 < .fin p
    · exact ⟨100, by norm_num, le_rfl, if_pos hcut⟩
    · exact ⟨p, hpos, not_lt.1 fun hlt => hcut (ExtRat.fin_lt.2 hlt), if_neg hcut⟩

lemma LoadReading.coreCount_lt (l : LoadReading) : l.coreCount < 2 ^ 32 := by
  rw [LoadReading.coreCount]
  split
  · norm_num
  · exact Nat.mod_lt _ (by norm_num)

/-- The packet of a responder is a well-formed response. -/
lemma response_packet {r : LoadResp} (hl : r.load_pct < 2 ^ 32) (ha : r.active_tasks < 2 ^ 32)
    (ht : r.total_tasks < 2 ^ 32) (hc : r.num_cores < 2 ^ 32) :
    (Outcome.datagram (loadRespPacket r)).response = some r := by
  rw [← checkLoadResp_eq_response, QueryProg.checkLoadResp_eq, checkLoadRespNet_packet,
    Option.map_some, NetLoadResp.decode, ofBe_be32 hl, ofBe_be32 ha, ofBe_be32 ht, ofBe_be32 hc]

namespace PeerNode

variable {B : FloatBits} (p : PeerNode B)

/-- What a peer answers, if it answers. -/
lemma response_eq : p.outcome.response = none ∨
    p.outcome.response = some (Responder.mk p.reading p.total B.bits).resp := by
  rcases p.answer with h | h
  · right
    rw [h]
    exact response_packet (B.lt _) p.sound.active p.total_lt p.reading.coreCount_lt
  · exact .inl h

/-- The load that a peer answers is finite and not negative. -/
lemma load_finite :
    ∃ r : ℚ, 0 ≤ r ∧ ExtRat.ofBits (B.bits p.reading.percentage) = .fin r := by
  obtain ⟨q, hq, hle, hpct⟩ := p.sound.percentage
  rw [hpct]
  exact B.percent q hq hle

/-- The loop sees the score of the peer and its address. -/
lemma contender_eq : (contender (p.info, p.outcome)).score = .fin p.candidate.score ∧
    (contender (p.info, p.outcome)).ip = p.candidate.ip := by
  refine ⟨?_, rfl⟩
  rcases p.response_eq with h | h
  · simp [contender, Outcome.result, h, candidate, noAnswerScore]
  · obtain ⟨r, -, hr⟩ := p.load_finite
    simp [contender, Outcome.result, h, candidate, respScore, Responder.resp, hr]

end PeerNode

/-! ### Where the task goes -/

namespace Fleet

variable (F : Fleet)

lemma own_finite : F.own.score = .fin (F.own.candidate F.local_ip).score := by
  obtain ⟨q, -, -, hpct⟩ := F.own_sound.percentage
  simp [LoadReading.score, LoadReading.candidate, hpct]

lemma mem_order {c : Candidate} (h : c ∈ F.nodes) : c ∈ F.order := by
  rcases List.mem_cons.1 h with rfl | h
  · exact List.mem_cons_self
  · apply List.mem_cons_of_mem
    have hne : F.peers.isEmpty = false := by
      cases hp : F.peers with
      | nil => simp [hp] at h
      | cons p peers => rfl
    rw [hne]
    exact List.mem_cons_of_mem _ h

/-- The candidates have distinct addresses. -/
lemma nodup_order_ip : (F.order.map Candidate.ip).Nodup := by
  have hips : (F.peers.map PeerNode.candidate).map Candidate.ip =
      F.peers.map fun p => p.info.ip := by
    rw [List.map_map]
    rfl
  have hnamed : ([] : Bytes) ∉ F.local_ip :: F.peers.map fun p => p.info.ip := F.named
  rw [order, List.map_cons]
  cases hp : F.peers.isEmpty with
  | true => exact List.nodup_singleton _
  | false =>
    have hnodup := List.nodup_cons.1 F.distinct
    simp only [List.mem_cons, not_or] at hnamed
    simp only [Bool.false_eq_true, if_false, List.map_cons, hips]
    refine List.nodup_cons.2 ⟨?_, List.nodup_cons.2 ⟨hnamed.2, hnodup.2⟩⟩
    intro hmem
    rcases List.mem_cons.1 hmem with hnil | hmem
    · exact hnamed.1 hnil.symm
    · exact hnodup.1 hmem

lemma nodup_order : F.order.Nodup := F.nodup_order_ip.of_map _

/-- A candidate is known by its address. -/
lemma eq_of_ip {c d : Candidate} (hc : c ∈ F.order) (hd : d ∈ F.order) (h : c.ip = d.ip) : c = d :=
  List.inj_on_of_nodup_map F.nodup_order_ip hc hd h

/-- The best peer after the loop is the first least of the peers behind the start value. -/
lemma pick_firstLeast (sc : Scene) : ∃ c,
    FirstLeast Candidate.score (startCandidate :: F.peers.map PeerNode.candidate) c ∧
      (pick (F.on sc).asked {}).score = .fin c.score ∧ (pick (F.on sc).asked {}).ip = c.ip := by
  obtain ⟨best, hbest⟩ : ∃ best : Option (PeerNode F.B) → Best,
      best = fun p => p.elim {} fun p => contender (p.info, p.outcome) := ⟨_, rfl⟩
  obtain ⟨cand, hcand⟩ : ∃ cand : Option (PeerNode F.B) → Candidate,
      cand = fun p => p.elim startCandidate PeerNode.candidate := ⟨_, rfl⟩
  have hagree : ∀ p, (best p).score = .fin (cand p).score ∧ (best p).ip = (cand p).ip := by
    subst hbest hcand
    intro p
    cases p with
    | none => exact ⟨rfl, rfl⟩
    | some p => exact p.contender_eq
  have hrat : ∀ p, (best p).rat = (cand p).score := by
    intro p
    rw [Best.rat, (hagree p).1, ExtRat.toRat_fin]
  have hasked : (F.on sc).asked.map contender = (F.peers.map some).map best := by
    subst hbest
    simp [on]
  have hstart : ({} : Best) = best none := by rw [hbest]; rfl
  have hpick : pick (F.on sc).asked {} =
      runningLeast Best.rat ((F.on sc).asked.map contender) {} := by
    refine pick_eq _ _ ?_ rfl
    intro x hx
    obtain ⟨p, -, rfl⟩ := List.mem_map.1 hx
    rw [Best.rat, p.contender_eq.1, ExtRat.toRat_fin]
  have hfirst := firstLeast_runningLeast Best.rat ((F.on sc).asked.map contender) {}
  rw [← hpick, hasked, hstart, ← List.map_cons] at hfirst
  obtain ⟨p, hp, hpe⟩ := hfirst.of_map
  simp only [hrat] at hp
  have hlist : startCandidate :: F.peers.map PeerNode.candidate =
      (none :: F.peers.map some).map cand := by
    rw [hcand, List.map_cons, List.map_map]
    rfl
  refine ⟨cand p, ?_, ?_, ?_⟩
  · rw [hlist]
    exact hp.map
  · rw [hstart, ← hpe]
    exact (hagree p).1
  · rw [hstart, ← hpe]
    exact (hagree p).2

/-- The task goes to the first least candidate. -/
lemma run_dispatch (sc : Scene) (task : Task) (own_port : ℕ) {rounds : ℕ}
    (hr : sc.incoming.length < rounds) : ∃ code s w,
    (dispatch rounds task F.local_ip own_port).run (F.on sc).handle (F.on sc).start =
        some (code, s) ∧
      w ∈ F.order ∧ FirstLeast Candidate.score F.order w ∧
      s.targets.head?.map Prod.fst = some w.ip := by
  obtain ⟨code, s, hrun, -, hhere, hthere⟩ :=
    Scene.run_dispatch (F.on sc) task F.local_ip own_port hr
  obtain ⟨c, hc, hscore, hip⟩ := F.pick_firstLeast sc
  cases hp : F.peers.isEmpty with
  | true =>
    have hempty : (F.on sc).asked = [] := by simpa [on] using hp
    have horder : F.order = [F.own.candidate F.local_ip] := by simp [order, hp]
    refine ⟨code, s, F.own.candidate F.local_ip, hrun, by simp [horder], ?_, ?_⟩
    · rw [horder]
      exact ⟨[], [], rfl, by simp, by simp⟩
    · rw [hhere (.inl hempty)]
      rfl
  | false =>
    have hne : (F.on sc).asked ≠ [] := by simpa [on] using hp
    have horder : F.order = F.own.candidate F.local_ip ::
        startCandidate :: F.peers.map PeerNode.candidate := by simp [order, hp]
    by_cases hle : (F.own.candidate F.local_ip).score ≤ c.score
    · refine ⟨code, s, F.own.candidate F.local_ip, hrun, by simp [horder], ?_, ?_⟩
      · rw [horder]
        exact hc.head hle
      · have hruns : (F.on sc).own.score ≤ (pick (F.on sc).asked {}).score := by
          rw [hscore]
          exact F.own_finite ▸ ExtRat.fin_le.2 hle
        rw [hhere (.inr hruns)]
        rfl
    · refine ⟨code, s, c, hrun, ?_, ?_, ?_⟩
      · rw [horder]
        exact List.mem_cons_of_mem _ hc.mem
      · rw [horder]
        exact hc.cons (not_le.1 hle)
      · have hnot : ¬ (F.on sc).runsHere := by
          rintro (h | h)
          · exact hne h
          · rw [hscore] at h
            have hown : ExtRat.fin (F.own.candidate F.local_ip).score ≤ .fin c.score :=
              F.own_finite ▸ h
            exact hle (ExtRat.fin_le.1 hown)
        rw [hthere hnot, hip]
        rfl

end Fleet

/-- A node whose load is unknown is not preferred to one with a known load below 100 and no more
active tasks, if and only if each such node is beaten in the order of the candidates. -/
theorem unknown_not_preferred_iff (F : Fleet) (sc : Scene) (task : Task) (own_port rounds : ℕ)
    (hr : sc.incoming.length < rounds) : ∃ code s,
    (dispatch rounds task F.local_ip own_port).run (F.on sc).handle (F.on sc).start =
        some (code, s) ∧
      (F.UnknownNotPreferred (s.targets.head?.map Prod.fst) ↔
        ∀ u ∈ F.nodes, u.load = none → ∀ c ∈ F.nodes, ∀ pct, c.load = some pct → pct < .fin 100 →
          c.active ≤ u.active → Beaten Candidate.score F.order u) := by
  obtain ⟨code, s, w, hrun, hw, hfirst, htarget⟩ := F.run_dispatch sc task own_port hr
  refine ⟨code, s, hrun, ?_⟩
  have hone : ∀ u ∈ F.nodes, some w.ip ≠ some u.ip ↔ Beaten Candidate.score F.order u := by
    intro u hu
    rw [hfirst.beaten_iff F.nodup_order (F.mem_order hu)]
    constructor
    · rintro hne rfl
      exact hne rfl
    · intro hne heq
      exact hne (F.eq_of_ip (F.mem_order hu) hw (Option.some.inj heq).symm)
  rw [htarget]
  constructor
  · intro h u hu hload c hc pct hpct hlt hact
    exact (hone u hu).1 (h u hu hload c hc pct hpct hlt hact)
  · intro h u hu hload c hc pct hpct hlt hact
    exact (hone u hu).2 (h u hu hload c hc pct hpct hlt hact)

/-! ### A node that cannot read its load -/

/-- The patterns of 0 and of 50. -/
def fiftyBits : FloatBits where
  bits x := if x = .fin 0 then 0 else 0x42480000
  lt x := by
    split
    · norm_num
    · norm_num
  zero := by decide +kernel
  percent q _ _ := by
    by_cases hz : q = 0
    · exact ⟨0, le_rfl, by rw [hz]; decide +kernel⟩
    · have hne : ExtRat.fin q ≠ .fin 0 := fun h => hz (ExtRat.fin.inj h)
      exact ⟨50, by norm_num, by rw [if_neg hne]; decide +kernel⟩

/-- An idle peer that cannot read its load. -/
def blindPeer : PeerNode fiftyBits where
  info := { ip := [49], port := 7778, valid := true }
  reading := ⟨.noFile, 4, 0⟩
  total := 0
  outcome := .datagram (loadRespPacket (Responder.mk ⟨.noFile, 4, 0⟩ 0 fiftyBits.bits).resp)
  sound := ⟨nofun, by norm_num⟩
  total_lt := by norm_num
  answer := .inl rfl

/-- This node, idle at half of its load, and the peer that cannot read its load. -/
def blindFleet : Fleet where
  B := fiftyBits
  local_ip := [48]
  own := ⟨.values (.fin 2) (.fin 2) (.fin 2), 4, 0⟩
  peers := [blindPeer]
  own_sound := by
    refine ⟨?_, by norm_num⟩
    intro l1 l5 l15 h
    cases h
    exact ⟨2, by norm_num, rfl⟩
  distinct := by decide
  named := by decide

lemma blindFleet_order : blindFleet.order =
    [⟨[48], some (.fin 50), 0, 50⟩, startCandidate, ⟨[49], none, 0, 0⟩] := by
  decide +kernel

lemma blindFleet_nodes :
    blindFleet.nodes = [⟨[48], some (.fin 50), 0, 50⟩, ⟨[49], none, 0, 0⟩] := by
  decide +kernel

theorem unknown_not_preferred_blind : ∃ code s,
    (dispatch 1 ⟨[97], [1], 1⟩ blindFleet.local_ip 7777).run (blindFleet.on twoPeers).handle
        (blindFleet.on twoPeers).start = some (code, s) ∧
      (blindFleet.UnknownNotPreferred (s.targets.head?.map Prod.fst) ↔
        ∀ u ∈ blindFleet.nodes, u.load = none → ∀ c ∈ blindFleet.nodes, ∀ pct,
          c.load = some pct → pct < .fin 100 → c.active ≤ u.active →
            Beaten Candidate.score blindFleet.order u) :=
  unknown_not_preferred_iff blindFleet twoPeers ⟨[97], [1], 1⟩ 7777 1 (by decide)

/-- The task goes to the peer that cannot read its load. -/
theorem unknown_preferred : ∃ code s,
    (dispatch 1 ⟨[97], [1], 1⟩ blindFleet.local_ip 7777).run (blindFleet.on twoPeers).handle
        (blindFleet.on twoPeers).start = some (code, s) ∧
      ¬ blindFleet.UnknownNotPreferred (s.targets.head?.map Prod.fst) := by
  obtain ⟨code, s, w, hrun, hw, hfirst, htarget⟩ :=
    blindFleet.run_dispatch twoPeers ⟨[97], [1], 1⟩ 7777
      (show twoPeers.incoming.length < 1 by decide)
  refine ⟨code, s, hrun, fun h => ?_⟩
  rw [blindFleet_order] at hw hfirst
  have hle : w.score ≤ 0 := hfirst.le (x := ⟨[49], none, 0, 0⟩) (by simp)
  have hblind : w = ⟨[49], none, 0, 0⟩ := by
    simp only [List.mem_cons, List.not_mem_nil, or_false] at hw
    rcases hw with rfl | rfl | rfl
    · norm_num at hle
    · norm_num [startCandidate] at hle
    · rfl
  rw [htarget, hblind] at h
  exact h ⟨[49], none, 0, 0⟩ (by simp [blindFleet_nodes]) rfl ⟨[48], some (.fin 50), 0, 50⟩
    (by simp [blindFleet_nodes]) (.fin 50) rfl (by decide) le_rfl rfl

end P2PNode
