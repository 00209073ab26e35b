import P2PNode.Lib.Interleave
import P2PNode.Peers.Refinement

/-!
# The reaper

The reaper thread (`discovery.c`) reads the clock and sweeps the table later, under the lock. The
calls of the other threads and the clock go on in between.
-/

namespace P2PNode

open Effect

/-! ### The thread -/

inductive ReapCall where
  | sleep (secs : ℤ)
  | time
  | sweep (now : ℤ)
  deriving DecidableEq

@[reducible] def ReapCall.Ret : ReapCall → Type
  | .sleep _ => Unit
  | .time    => ℤ
  | .sweep _ => Unit

abbrev ReapProg := Prog ReapCall ReapCall.Ret

namespace ReapCall

def doSleep (secs : ℤ) : ReapProg Unit := Prog.perform (ReapCall.sleep secs)
def doTime : ReapProg ℤ := Prog.perform ReapCall.time
/-- The part of `peer_list_reap_stale` under the lock. -/
def doSweep (now : ℤ) : ReapProg Unit := Prog.perform (ReapCall.sweep now)

end ReapCall

open ReapCall

/-- `peer_list_reap_stale`, the clock being read before the lock is taken. -/
def reapStale : ReapProg Unit := do
  let now ← doTime
  doSweep now

def reaperThread : ℕ → ReapProg Unit
  | 0 => .spin
  | rounds + 1 => do
    doSleep (peerTimeoutSecs / 2)
    reapStale
    reaperThread rounds

/-! ### The calls of the other threads -/

/-- A call on the table by another thread; each one reads the clock under the lock. -/
inductive TableCall where
  | add (ip : Ip) (port : ℕ)
  | touch (ip : Ip)
  | updateLoad (ip : Ip) (resp : LoadResp)
  | remove (ip : Ip)

/-- The operation at the clock value `now`. -/
def TableCall.at (now : ℤ) : TableCall → PeerOp
  | .add ip port        => .add ip port now
  | .touch ip           => .touch ip now
  | .updateLoad ip resp => .updateLoad ip resp now
  | .remove ip          => .remove ip

/-- When a call recorded a sign of life of `ip`: a HELLO or a load response. -/
def PeerOp.sign (ip : Bytes) : PeerOp → Option ℤ
  | .add ip' _ now        => if ip'.text = ip then some now else none
  | .touch ip' now        => if ip'.text = ip then some now else none
  | .updateLoad ip' _ now => if ip'.text = ip then some now else none
  | .remove _             => none
  | .reapStale _          => none

/-- When the last sign of life of `ip` was recorded. -/
def lastSign (ip : Bytes) (ops : List PeerOp) : Option ℤ :=
  (ops.filterMap (PeerOp.sign ip)).getLast?

/-! ### The node -/

/-- The clock, the table, and the account of the operations on it. -/
structure ReapWorld where
  clock : ℤ
  peers : PeerTable := peerListInit
  log : List PeerOp := []
  sampled : Option ℤ := none

/-- What changes by itself: the clock, which never goes back, and the table. -/
inductive ReapEnv where
  | tick (secs : ℕ)
  | table (c : TableCall)

namespace ReapWorld

def perform (w : ReapWorld) (op : PeerOp) : ReapWorld :=
  { w with peers := op.onTable w.peers, log := w.log ++ [op] }

def call (w : ReapWorld) (_ : ℕ) : (c : ReapCall) → c.Ret → Option ReapWorld
  | .sleep _, _ => some w
  | .time, (now : ℤ) => if now = w.clock then some { w with sampled := some now } else none
  | .sweep now, _ => some (w.perform (.reapStale now))

def env (w : ReapWorld) : ReapEnv → Option ReapWorld
  | .tick secs => some { w with clock := w.clock + secs }
  | .table c => some (w.perform (c.at w.clock))

def sys : Conc ReapCall ReapCall.Ret ReapWorld ReapEnv where
  call := call
  env := env
  spawn := fun _ _ => none

/-- The node before its first step, at any time. -/
def start (rounds : ℕ) (clock : ℤ) : Conf ReapCall ReapCall.Ret ReapWorld where
  threads := [reaperThread rounds]
  world := { clock := clock }

end ReapWorld

/-! ### What a record says -/

lemma lastSign_append (ip : Bytes) (ops : List PeerOp) (op : PeerOp) :
    lastSign ip (ops ++ [op]) = (op.sign ip).or (lastSign ip ops) := by
  rw [lastSign, List.filterMap_append, List.getLast?_append, lastSign]
  cases h : op.sign ip with
  | none => simp [h]
  | some τ => simp [h]

/-- What an operation makes of `last_seen`. -/
lemma last_seen_onMap {m : PeerMap} {op : PeerOp} {ip : Bytes} {r : PeerRec}
    (h : (op.onMap m).get ip = some r) :
    op.sign ip = some r.last_seen ∨
      op.sign ip = none ∧ ∃ r₀, m.get ip = some r₀ ∧ r₀.last_seen = r.last_seen := by
  have hmodify : ∀ (ip' : Ip) (f : PeerRec → PeerRec) (now : ℤ),
      (∀ r, (f r).last_seen = now) → (m.modify ip'.text f).get ip = some r →
      (if ip'.text = ip then some now else none) = some r.last_seen ∨
        (if ip'.text = ip then some now else none) = none ∧
          ∃ r₀, m.get ip = some r₀ ∧ r₀.last_seen = r.last_seen := by
    intro ip' f now hf hget
    rw [BoundedMap.get_modify] at hget
    by_cases hip : ip'.text = ip
    · rw [if_pos hip.symm, Option.map_eq_some_iff] at hget
      obtain ⟨r₀, -, rfl⟩ := hget
      rw [if_pos hip, hf]
      exact .inl rfl
    · rw [if_neg fun he => hip he.symm] at hget
      exact .inr ⟨if_neg hip, r, hget, rfl⟩
  cases op with
  | add ip' port now =>
    simp only [PeerOp.onMap] at h
    split at h
    · exact hmodify ip' _ now (fun _ => rfl) h
    · rename_i hnone
      by_cases hip : ip'.text = ip
      · -- with a full table nothing is inserted, and the address has no record
        by_cases hroom : m.size < maxPeers
        · rw [BoundedMap.get_insert hroom, if_pos hip.symm] at h
          cases h
          exact .inl (if_pos hip)
        · rw [BoundedMap.insert_full hroom, ← hip] at h
          rw [h] at hnone
          exact absurd rfl hnone
      · by_cases hroom : m.size < maxPeers
        · rw [BoundedMap.get_insert hroom, if_neg fun he => hip he.symm] at h
          exact .inr ⟨if_neg hip, r, h, rfl⟩
        · rw [BoundedMap.insert_full hroom] at h
          exact .inr ⟨if_neg hip, r, h, rfl⟩
  | remove ip' =>
    rw [PeerOp.onMap, BoundedMap.get_erase] at h
    split at h
    · cases h
    · exact .inr ⟨rfl, r, h, rfl⟩
  | updateLoad ip' resp now => exact hmodify ip' _ now (fun _ => rfl) h
  | touch ip' now => exact hmodify ip' _ now (fun _ => rfl) h
  | reapStale now =>
    rw [PeerOp.onMap, BoundedMap.get_filter, Option.filter_eq_some_iff] at h
    exact .inr ⟨rfl, r, h.1, rfl⟩

/-- The record of an address was last set when its last sign of life was recorded. -/
lemma lastSign_of_get (ops : List PeerOp) {ip : Bytes} {r : PeerRec}
    (h : (PeerOp.runMap ops).get ip = some r) : lastSign ip ops = some r.last_seen := by
  induction ops using List.reverseRecOn generalizing r with
  | nil => cases h
  | append_singleton ops op ih =>
    rw [PeerOp.runMap, List.foldl_append] at h
    rw [lastSign_append]
    rcases last_seen_onMap h with hs | ⟨hs, r₀, hget, hr₀⟩
    · rw [hs, Option.some_or]
    · rw [hs, Option.none_or, ih hget, hr₀]

/-! ### One sweep -/

section Sweep

variable {now : ℤ} {t : PeerTable} {j : Fin maxPeers}

lemma reapStale_of_fresh (h : now - (t j).last_seen ≤ peerTimeoutSecs) :
    peerListReapStale now t j = t j := by
  rw [peerListReapStale]
  simp [h]

lemma reapStale_of_stale (hv : (t j).valid) (h : peerTimeoutSecs < now - (t j).last_seen) :
    peerListReapStale now t j = {} := by
  rw [peerListReapStale]
  simp [hv, h]

/-- What is left after a sweep. -/
lemma reapStale_valid (h : (peerListReapStale now t j).valid) :
    now - (t j).last_seen ≤ peerTimeoutSecs ∧ peerListReapStale now t j = t j := by
  by_cases hs : peerTimeoutSecs < now - (t j).last_seen
  · cases hv : (t j).valid with
    | true =>
      rw [reapStale_of_stale hv hs] at h
      cases h
    | false =>
      simp [peerListReapStale, hv] at h
  · exact ⟨not_lt.1 hs, reapStale_of_fresh (not_lt.1 hs)⟩

end Sweep

/-! ### Every run -/

/-- Where the reaper is: it has sampled the clock and not swept yet, or not. -/
inductive ReapState where
  | idle
  | sampled (now : ℤ)
  | bad

namespace ReapState

def auto : Kernel ReapCall ReapCall.Ret ReapState
  | .idle, .sleep _, _ => some .idle
  | .idle, .time, (now : ℤ) => some (.sampled now)
  | .sampled now, .sweep now', _ => some (if now' = now then .idle else .bad)
  | _, _, _ => some .bad

def Good (q : ReapState) : Prop := q ≠ .bad

/-- The sampled time is in the past. -/
def Past (q : ReapState) (w : ReapWorld) : Prop :=
  ∀ now, q = .sampled now → w.sampled = some now ∧ now ≤ w.clock

/-- The reaper is at `q`, and the table is what the operations made of it. -/
structure Inv (qs : List ReapState) (w : ReapWorld) : Prop where
  one : ∃ q, qs = [q] ∧ Past q w
  peers : w.peers = PeerOp.runTable w.log

lemma always_reaperThread (rounds : ℕ) :
    (reaperThread rounds).Always auto Good (fun _ _ => True) .idle := by
  induction rounds with
  | zero => exact nofun
  | succ rounds ih =>
    refine ⟨nofun, fun _ q hq => ?_⟩
    cases hq
    refine ⟨nofun, fun now q hq => ?_⟩
    cases hq
    refine ⟨nofun, fun _ q hq => ?_⟩
    simp only [auto, if_true] at hq
    cases hq
    exact ih

variable {qs : List ReapState} {w w' : ReapWorld}

lemma peers_perform (h : w.peers = PeerOp.runTable w.log) (op : PeerOp) :
    (w.perform op).peers = PeerOp.runTable (w.perform op).log := by
  rw [ReapWorld.perform]
  simp only
  rw [PeerOp.runTable, List.foldl_append, h]
  rfl

/-- A call of the reaper. -/
lemma Inv.call {i : ℕ} {q : ReapState} {c : ReapCall} {r : c.Ret} (h : Inv qs w)
    (hq : qs[i]? = some q) (hw : ReapWorld.call w i c r = some w') :
    ∃ q', auto q c r = some q' ∧ (Good q' → Inv (qs.set i q') w') := by
  obtain ⟨⟨q₀, rfl, hpast⟩, hpeers⟩ := h
  obtain ⟨rfl, rfl⟩ : i = 0 ∧ q₀ = q := by
    cases i with
    | zero => exact ⟨rfl, Option.some.inj hq⟩
    | succ i => cases hq
  cases c with
  | sleep secs =>
    cases hw
    cases q₀ with
    | idle => exact ⟨.idle, rfl, fun _ => ⟨⟨.idle, rfl, nofun⟩, hpeers⟩⟩
    | _ => exact ⟨.bad, rfl, fun hb => absurd rfl hb⟩
  | time =>
    simp only [ReapWorld.call] at hw
    split at hw
    · rename_i hnow
      cases hw
      cases q₀ with
      | idle =>
        refine ⟨.sampled r, rfl, fun _ => ⟨⟨.sampled r, rfl, ?_⟩, hpeers⟩⟩
        rintro now ⟨⟩
        exact ⟨rfl, le_of_eq hnow⟩
      | _ => exact ⟨.bad, rfl, fun hb => absurd rfl hb⟩
    · cases hw
  | sweep now =>
    cases hw
    cases q₀ with
    | sampled now' =>
      refine ⟨_, rfl, fun hgood => ?_⟩
      by_cases hnow : now = now'
      · rw [if_pos hnow]
        exact ⟨⟨.idle, rfl, nofun⟩, peers_perform hpeers _⟩
      · rw [if_neg hnow] at hgood
        exact absurd rfl hgood
    | _ => exact ⟨.bad, rfl, fun hb => absurd rfl hb⟩

/-- What happens by itself. -/
lemma Inv.env {e : ReapEnv} (h : Inv qs w) (hw : ReapWorld.env w e = some w') : Inv qs w' := by
  obtain ⟨⟨q, rfl, hpast⟩, hpeers⟩ := h
  cases e with
  | tick secs =>
    cases hw
    refine ⟨⟨q, rfl, fun now hq => ?_⟩, hpeers⟩
    obtain ⟨hs, hle⟩ := hpast now hq
    refine ⟨hs, hle.trans ?_⟩
    exact le_add_of_nonneg_right (Int.natCast_nonneg secs)
  | table c =>
    cases hw
    exact ⟨⟨q, rfl, hpast⟩, peers_perform hpeers _⟩

/-- The outline of the reaper. -/
def outline : Conc.Outline ReapWorld.sys Conc.anyMove ReapState where
  auto := auto
  good := Good
  fin := fun _ => True
  fresh := fun _ _ => .bad
  inv := Inv
  spawned := nofun
  call := by
    intro qs w i q c r w' h hq _ _ hw
    obtain ⟨q', hq', hinv⟩ := h.call hq hw
    refine ⟨q', hq', fun hgood => ?_⟩
    simpa [ReapWorld.sys] using hinv hgood
  env := fun h _ hw => h.env hw

lemma holds_start (rounds : ℕ) (clock : ℤ) :
    outline.Holds (ReapWorld.start rounds clock) [.idle] :=
  ⟨.cons (always_reaperThread rounds) .nil, ⟨.idle, rfl, nofun⟩, rfl⟩

/-- A sweep is made with the time that the reaper has sampled. -/
lemma sampled_of_sweep {s t : Conf ReapCall ReapCall.Ret ReapWorld} {qs : List ReapState} {i : ℕ}
    {now : ℤ} (h : outline.Holds s qs)
    (hn : ReapWorld.sys.next s (.call i (.sweep now) ()) = some t) :
    s.world.sampled = some now ∧ now ≤ s.world.clock ∧
      t.world = s.world.perform (.reapStale now) := by
  obtain ⟨hts, ⟨q, rfl, hpast⟩, -⟩ := h
  rcases Conc.next_cases hn with ⟨i', c, r, k, w, hm, hi, hw, rfl⟩ | ⟨e, w, hm, -⟩
  · cases hm
    cases hw
    obtain ⟨p, hp, hA⟩ : ∃ p, s.threads = [p] ∧ p.Always auto Good (fun _ _ => True) q := by
      obtain ⟨p, ps, hA, hnil, hp⟩ := List.forall₂_cons_right_iff.1 hts
      rw [List.forall₂_nil_right_iff.1 hnil] at hp
      exact ⟨p, hp, hA⟩
    obtain rfl : p = .call (.sweep now) k := by
      rw [hp] at hi
      cases i with
      | zero => exact Option.some.inj hi
      | succ i => cases hi
    have hq : q = .sampled now := by
      cases q with
      | sampled now' =>
        have hgood := (hA.2 () _ rfl).inv
        by_cases hnow : now = now'
        · rw [hnow]
        · rw [if_neg hnow] at hgood
          exact absurd rfl hgood
      | _ => exact absurd rfl (hA.2 () _ rfl).inv
    obtain ⟨hs, hle⟩ := hpast now hq
    exact ⟨hs, hle, rfl⟩
  · cases hm

end ReapState

/-- In every run, a sweep uses the time that the reaper has sampled; it deletes the entries whose
`last_seen` is more than `PEER_TIMEOUT_SECS` older than that time and no others, each of them more
than `PEER_TIMEOUT_SECS` after the last sign of life of its peer was recorded, and what is left
keeps its slot and its fields. -/
theorem reaper_removes_stale (rounds : ℕ) (clock : ℤ) {s t : Conf ReapCall ReapCall.Ret ReapWorld}
    {i : ℕ} {now : ℤ}
    (hr : Conc.Reach ReapWorld.sys Conc.anyMove (ReapWorld.start rounds clock) s)
    (hn : ReapWorld.sys.next s (.call i (.sweep now) ()) = some t) :
    s.world.sampled = some now ∧ now ≤ s.world.clock ∧
      (∀ j, (s.world.peers j).valid → ¬ (t.world.peers j).valid →
        peerTimeoutSecs < now - (s.world.peers j).last_seen ∧
          ∃ τ, lastSign (s.world.peers j).ip s.world.log = some τ ∧
            peerTimeoutSecs < s.world.clock - τ) ∧
      (∀ j, (t.world.peers j).valid → now - (t.world.peers j).last_seen ≤ peerTimeoutSecs) ∧
      ∀ j, (t.world.peers j).valid → t.world.peers j = s.world.peers j := by
  obtain ⟨qs, hqs⟩ := ReapState.outline.reach (ReapState.holds_start rounds clock) hr
  obtain ⟨hs, hle, ht⟩ := ReapState.sampled_of_sweep hqs hn
  have hpeers : s.world.peers = PeerOp.runTable s.world.log := hqs.2.peers
  have hsweep : t.world.peers = peerListReapStale now s.world.peers := by
    rw [ht]
    rfl
  refine ⟨hs, hle, ?_, ?_, ?_⟩
  · intro j hv hdead
    rw [hsweep] at hdead
    have hstale : peerTimeoutSecs < now - (s.world.peers j).last_seen := by
      by_contra hfresh
      rw [reapStale_of_fresh (not_lt.1 hfresh)] at hdead
      exact hdead hv
    refine ⟨hstale, (s.world.peers j).last_seen, ?_, ?_⟩
    · have hrep := represents_run s.world.log
      rw [← hpeers] at hrep
      exact lastSign_of_get _ (hrep.get_of_live hv)
    · exact hstale.trans_le (sub_le_sub_right hle _)
  · intro j hv
    rw [hsweep] at hv ⊢
    obtain ⟨hfresh, hkeep⟩ := reapStale_valid hv
    rw [hkeep]
    exact hfresh
  · intro j hv
    rw [hsweep] at hv ⊢
    exact (reapStale_valid hv).2

instance : NeZero maxPeers := ⟨by decide⟩

/-- A peer that was heard 40 seconds ago is removed, one that was heard after the clock was
sampled is not. -/
theorem reaper_removes_one : ∃ s t,
    Conc.Reach ReapWorld.sys Conc.anyMove (ReapWorld.start 1 1000) s ∧
      ReapWorld.sys.next s (.call 0 (.sweep 1040) ()) = some t ∧
      ((s.world.peers 0).valid ∧ ¬ (t.world.peers 0).valid ∧ (t.world.peers 1).valid) ∧
      s.world.sampled = some 1040 ∧ 1040 ≤ s.world.clock ∧
      (∀ j, (s.world.peers j).valid → ¬ (t.world.peers j).valid →
        peerTimeoutSecs < 1040 - (s.world.peers j).last_seen ∧
          ∃ τ, lastSign (s.world.peers j).ip s.world.log = some τ ∧
            peerTimeoutSecs < s.world.clock - τ) ∧
      (∀ j, (t.world.peers j).valid → 1040 - (t.world.peers j).last_seen ≤ peerTimeoutSecs) ∧
      ∀ j, (t.world.peers j).valid → t.world.peers j = s.world.peers j := by
  obtain ⟨A, hA⟩ : ∃ A : Ip, A = ⟨[49], by decide, by decide, by decide⟩ := ⟨_, rfl⟩
  obtain ⟨B, hB⟩ : ∃ B : Ip, B = ⟨[50], by decide, by decide, by decide⟩ := ⟨_, rfl⟩
  have hplay : ((ReapWorld.sys.play Conc.anyMove
      [.call 0 (.sleep 15) (), .env (.table (.add A 7777)), .env (.table (.add B 7777)),
        .env (.tick 40), .call 0 .time (1040 : ℤ), .env (.tick 5), .env (.table (.touch B))]
      (ReapWorld.start 1 1000)).bind fun s =>
        (ReapWorld.sys.next s (.call 0 (.sweep 1040) ())).map fun t =>
          ((s.world.peers 0).valid, (t.world.peers 0).valid, (t.world.peers 1).valid)) =
      some (true, false, true) := by
    subst hA hB
    decide +kernel
  obtain ⟨s, hs, ht⟩ := Option.bind_eq_some_iff.1 hplay
  obtain ⟨t, ht, hv⟩ := Option.map_eq_some_iff.1 ht
  obtain ⟨hv₁, hv₂, hv₃⟩ : (s.world.peers 0).valid = true ∧ (t.world.peers 0).valid = false ∧
      (t.world.peers 1).valid = true := by simpa using hv
  have hr := Conc.Reach.play .start _ hs
  exact ⟨s, t, hr, ht, ⟨hv₁, by simp [hv₂], hv₃⟩, reaper_removes_stale 1 1000 hr ht⟩

end P2PNode
