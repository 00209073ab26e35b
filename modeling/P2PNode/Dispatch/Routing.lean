import P2PNode.Dispatch.Scene
import P2PNode.Lib.RunningLeast
import Mathlib.Tactic.NormNum

/-!
# Routing

The task goes to the first of the least loaded peers that answered, unless this node is not more
loaded than any of them. The two sentinel scores never decide: a node whose own score is below
`10 ^ 9` prefers itself to both.
-/

namespace P2PNode

open Effect

/-! ### The best peer -/

/-- The loads that the peers answered are finite and not negative. -/
def Scene.FiniteLoads (sc : Scene) : Prop :=
  ∀ x ∈ sc.asked, ∀ resp, x.2.response = some resp → ∃ q : ℚ, 0 ≤ q ∧
    ExtRat.ofBits resp.load_pct = .fin q

/-- A peer that gave no answer, or one with its score. -/
inductive ContenderCase (x : PeerInfo × Outcome) : Prop where
  | silent (hs : scored x = none) (hc : contender x = ⟨.fin (10 ^ 9), x.1.ip, none⟩)
  | answered (q : ℚ) (hs : scored x = some (x.1, .fin q))
      (hc : contender x = ⟨.fin q, x.1.ip, some x.1.port⟩)

lemma Scene.FiniteLoads.contender_case {sc : Scene} (h : sc.FiniteLoads) {x : PeerInfo × Outcome}
    (hx : x ∈ sc.asked) : ContenderCase x := by
  cases hresp : x.2.response with
  | none =>
    apply ContenderCase.silent
    · simp [scored, Outcome.score, hresp]
    · simp [contender, Outcome.result, hresp, noAnswerScore]
  | some resp =>
    obtain ⟨q, -, hq⟩ := h x hx resp hresp
    apply ContenderCase.answered (q + 10 * resp.active_tasks)
    · simp [scored, Outcome.score, hresp, respScore, hq]
    · simp [contender, Outcome.result, hresp, respScore, hq]

/-- The score as a rational number. -/
def Best.rat (b : Best) : ℚ := b.score.toRat

lemma ContenderCase.finite {x : PeerInfo × Outcome} (h : ContenderCase x) :
    (contender x).score = .fin (contender x).rat := by
  cases h with
  | silent hs hc => rw [hc]; rfl
  | answered q hs hc => rw [hc]; rfl

/-- An entry of the answers is a contender. -/
lemma ContenderCase.of_scored {x : PeerInfo × Outcome} (h : ContenderCase x) {a : PeerInfo × ExtRat}
    (ha : scored x = some a) :
    a.2 = .fin (contender x).rat ∧ (contender x).ip = a.1.ip ∧
      (contender x).port = some a.1.port := by
  cases h with
  | silent hs hc => simp [hs] at ha
  | answered q hs hc =>
    rw [hs] at ha
    obtain rfl := Option.some.inj ha
    simp [hc, Best.rat]

lemma Best.lt_iff {b b' : Best} (h : b.score = .fin b.rat) (h' : b'.score = .fin b'.rat) :
    b.score < b'.score ↔ b.rat < b'.rat := by
  rw [h, h', ExtRat.fin_lt]

lemma pick_eq (asked : List (PeerInfo × Outcome)) (best : Best)
    (h : ∀ x ∈ asked, (contender x).score = .fin (contender x).rat)
    (hb : best.score = .fin best.rat) :
    pick asked best = runningLeast Best.rat (asked.map contender) best := by
  induction asked generalizing best with
  | nil => rfl
  | cons x asked ih =>
    have hx := h x (List.mem_cons_self ..)
    have htail := fun y hy => h y (List.mem_cons_of_mem _ hy)
    by_cases hlt : (contender x).rat < best.rat
    · have hlt' : (contender x).score < best.score := (Best.lt_iff hx hb).2 hlt
      have hp : pick (x :: asked) best = pick asked (contender x) := by
        simp [pick, hlt']
      rw [hp, ih _ htail hx]
      simp [runningLeast, hlt]
    · have hlt' : ¬ (contender x).score < best.score := fun hc => hlt ((Best.lt_iff hx hb).1 hc)
      have hp : pick (x :: asked) best = pick asked best := by
        simp [pick, hlt']
      rw [hp, ih _ htail hb]
      simp [runningLeast, hlt]

/-- The first least contender, if it answered, is the first least of the answers. -/
lemma firstLeast_answers {asked : List (PeerInfo × Outcome)} (h : ∀ x ∈ asked, ContenderCase x)
    {x : PeerInfo × Outcome} {a : PeerInfo × ExtRat} (ha : scored x = some a)
    (hx : FirstLeast (fun y => (contender y).rat) asked x) :
    FirstLeast Prod.snd (asked.filterMap scored) a := by
  obtain ⟨pre, post, hsplit, hpre, hpost⟩ := hx
  have hax : a.2 = .fin (contender x).rat := (ContenderCase.of_scored (h x (by simp [hsplit])) ha).1
  refine ⟨pre.filterMap scored, post.filterMap scored, ?_, ?_, ?_⟩
  · rw [hsplit, List.filterMap_append, List.filterMap_cons_some ha]
  · intro b hb
    obtain ⟨y, hy, hyb⟩ := List.mem_filterMap.1 hb
    have hby := (ContenderCase.of_scored (h y (by simp [hsplit, hy])) hyb).1
    rw [hax, hby, ExtRat.fin_lt]
    exact hpre y hy
  · intro b hb
    obtain ⟨y, hy, hyb⟩ := List.mem_filterMap.1 hb
    have hby := (ContenderCase.of_scored (h y (by simp [hsplit, hy])) hyb).1
    rw [hax, hby, ExtRat.fin_le]
    exact hpost y hy

namespace Scene

variable {sc : Scene}

/-- The best peer after the loop: the start value when every contender is worse, or the first
least contender. -/
lemma FiniteLoads.pick_cases (h : sc.FiniteLoads) :
    (pick sc.asked {} = {} ∧ ∀ x ∈ sc.asked, (10 ^ 10 : ℚ) ≤ (contender x).rat) ∨
      ∃ x, FirstLeast (fun y => (contender y).rat) sc.asked x ∧
        pick sc.asked {} = contender x := by
  have hpick := pick_eq sc.asked {} (fun x hx => (h.contender_case hx).finite) rfl
  rcases runningLeast_cases Best.rat (sc.asked.map contender) {} with ⟨hr, hall⟩ | ⟨-, hfirst⟩
  · refine .inl ⟨hpick.trans hr, fun x hx => ?_⟩
    exact hall _ (List.mem_map_of_mem hx)
  · obtain ⟨x, hx, hxp⟩ := hfirst.of_map
    exact .inr ⟨x, hx, hpick.trans hxp.symm⟩

/-- No contender is better than the best peer. -/
lemma FiniteLoads.pick_le (h : sc.FiniteLoads) {x : PeerInfo × Outcome} (hx : x ∈ sc.asked) :
    (pick sc.asked {}).rat ≤ (contender x).rat := by
  rcases h.pick_cases with ⟨hp, hall⟩ | ⟨y, hy, hp⟩
  · rw [hp]
    exact hall x hx
  · rw [hp]
    exact hy.le hx

lemma FiniteLoads.pick_finite (h : sc.FiniteLoads) :
    (pick sc.asked {}).score = .fin (pick sc.asked {}).rat := by
  rcases h.pick_cases with ⟨hp, hall⟩ | ⟨y, hy, hp⟩
  · rw [hp]
    rfl
  · rw [hp]
    exact (h.contender_case hy.mem).finite

lemma FiniteLoads.runsHere_iff (h : sc.FiniteLoads) (hself : sc.own.score < .fin (10 ^ 9)) :
    sc.runsHere ↔ ∀ a ∈ sc.answers, sc.own.score ≤ a.2 := by
  constructor
  · rintro (hnil | hle) a ha
    · simp [answers, hnil] at ha
    · obtain ⟨x, hx, hxa⟩ := List.mem_filterMap.1 ha
      rw [((h.contender_case hx).of_scored hxa).1]
      rw [h.pick_finite] at hle
      exact ExtRat.le_fin_trans hle (h.pick_le hx)
  · intro hall
    right
    rcases h.pick_cases with ⟨hp, -⟩ | ⟨x, hfirst, hp⟩
    · rw [hp]
      exact ExtRat.le_of_lt_fin hself (by norm_num)
    · rw [hp]
      have hx : x ∈ sc.asked := hfirst.mem
      cases h.contender_case hx with
      | silent hs hc =>
        rw [hc]
        exact ExtRat.le_of_lt_fin hself le_rfl
      | answered q hs hc =>
        rw [hc]
        exact hall _ (List.mem_filterMap.2 ⟨x, hx, hs⟩)

lemma FiniteLoads.pick_firstLeast (h : sc.FiniteLoads) (hself : sc.own.score < .fin (10 ^ 9))
    (hnot : ¬ sc.runsHere) :
    ∃ a, FirstLeast Prod.snd sc.answers a ∧ (pick sc.asked {}).ip = a.1.ip ∧
      (pick sc.asked {}).port = some a.1.port := by
  rcases h.pick_cases with ⟨hp, -⟩ | ⟨x, hfirst, hp⟩
  · refine absurd (Or.inr ?_) hnot
    rw [hp]
    exact ExtRat.le_of_lt_fin hself (by norm_num)
  · have hx : x ∈ sc.asked := hfirst.mem
    cases h.contender_case hx with
    | silent hs hc =>
      refine absurd (Or.inr ?_) hnot
      rw [hp, hc]
      exact ExtRat.le_of_lt_fin hself le_rfl
    | answered q hs hc =>
      refine ⟨(x.1, .fin q), ?_, by rw [hp, hc], by rw [hp, hc]⟩
      exact firstLeast_answers (fun y hy => h.contender_case hy) hs hfirst

end Scene

/-- `dispatch` runs the task here exactly when the score of this node is at most that of every
peer that answered, and otherwise turns first to the first of the least loaded peers that
answered, at the port that the snapshot holds for it. -/
theorem dispatch_routes_least_loaded (sc : Scene) (task : Task) (local_ip : Bytes) (own_port : ℕ)
    (rounds : ℕ) (hr : sc.incoming.length < rounds) (hload : sc.FiniteLoads)
    (hself : sc.own.score < .fin (10 ^ 9)) :
    ∃ code s, (dispatch rounds task local_ip own_port).run sc.handle sc.start = some (code, s) ∧
      (.routeSelf local_ip own_port ∈ s.printed ↔ ∀ a ∈ sc.answers, sc.own.score ≤ a.2) ∧
      ((∀ a ∈ sc.answers, sc.own.score ≤ a.2) →
        s.targets.head? = some (local_ip, some own_port)) ∧
      ((∃ a ∈ sc.answers, ¬ sc.own.score ≤ a.2) → ∃ a, FirstLeast Prod.snd sc.answers a ∧
        s.targets.head? = some (a.1.ip, some a.1.port)) := by
  obtain ⟨code, s, hrun, hpr, hhere, hthere⟩ :=
    Scene.run_dispatch sc task local_ip own_port hr
  have hiff := hload.runsHere_iff hself
  refine ⟨code, s, hrun, hpr.trans hiff, fun h => hhere (hiff.2 h), ?_⟩
  rintro ⟨b, hb, hlt⟩
  have hnot : ¬ sc.runsHere := fun h => hlt (hiff.1 h b hb)
  obtain ⟨a, hfirst, hip, hport⟩ := hload.pick_firstLeast hself hnot
  refine ⟨a, hfirst, ?_⟩
  rw [hthere hnot, hip, hport]

/-- An idle peer, a silent one, and this node under full load. -/
def twoPeers : Scene where
  asked := [({ ip := [50], port := 7777, valid := true }, .timeout),
    ({ ip := [49], port := 7778, valid := true }, .datagram
      (({ type := msgLoadResp, payload_len := 16 } : MsgHeader).bytes ++
        (LoadResp.mk 0 0 0 4).bytes))]
  own := ⟨.values (.fin 4) (.fin 2) (.fin 1), 4, 0⟩
  later := ⟨.noFile, 4, 0⟩
  connected := fun _ => 0
  block := none
  sent := -1
  incoming := []

lemma twoPeers_response :
    (twoPeers.asked.map fun x => x.2.response) = [none, some ⟨0, 0, 0, 4⟩] := by
  decide

lemma twoPeers_finiteLoads : twoPeers.FiniteLoads := by
  intro x hx resp hr
  have hmem : some resp ∈ twoPeers.asked.map fun x => x.2.response := hr ▸ List.mem_map_of_mem hx
  rw [twoPeers_response] at hmem
  have : resp = ⟨0, 0, 0, 4⟩ := by simpa using hmem
  subst this
  exact ⟨0, le_rfl, by simp [ExtRat.ofBits]⟩

lemma twoPeers_own : twoPeers.own.score < .fin (10 ^ 9) := by decide +kernel

theorem dispatch_routes_twoPeers : ∃ code s,
    (dispatch 1 ⟨[97], [1], 1⟩ [48] 7777).run twoPeers.handle twoPeers.start =
      some (code, s) ∧
      (.routeSelf [48] 7777 ∈ s.printed ↔ ∀ a ∈ twoPeers.answers, twoPeers.own.score ≤ a.2) ∧
      ((∀ a ∈ twoPeers.answers, twoPeers.own.score ≤ a.2) →
        s.targets.head? = some ([48], some 7777)) ∧
      ((∃ a ∈ twoPeers.answers, ¬ twoPeers.own.score ≤ a.2) →
        ∃ a, FirstLeast Prod.snd twoPeers.answers a ∧
          s.targets.head? = some (a.1.ip, some a.1.port)) :=
  dispatch_routes_least_loaded twoPeers ⟨[97], [1], 1⟩ [48] 7777 1 (by decide)
    twoPeers_finiteLoads twoPeers_own
end P2PNode
