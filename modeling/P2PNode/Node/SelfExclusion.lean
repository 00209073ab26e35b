import P2PNode.Node.Announcer
import P2PNode.Peers.Refinement

/-!
# Which HELLO the listener ignores

The address that a node takes for its own (`get_local_ip` in `net_utils.c`, `main.c`), and the
HELLOs whose source is this address. A host can have several addresses, and several nodes can run
on one host.
-/

namespace P2PNode

open Effect

/-! ### The address of the node -/

/-- One entry of `getifaddrs`; `inet` is `none` where `ifa_addr` is null or of another family. -/
structure IfAddr where
  name : Bytes
  inet : Option Ip
  loopback : Bool

/-- The text `127.0.0.1`. -/
def loopbackText : Bytes := [49, 50, 55, 46, 48, 46, 48, 46, 49]

/-- The first loop of `get_local_ip`. -/
def firstPass (iface : Option Bytes) : List IfAddr → Option Bytes
  | [] => none
  | ifa :: ifap =>
    match ifa.inet with
    | none => firstPass iface ifap
    | some ip =>
      if ifa.loopback then firstPass iface ifap
      else if iface.any fun name => ifa.name ≠ name then firstPass iface ifap
      else some ip.text

/-- The second loop. -/
def secondPass : List IfAddr → Option Bytes
  | [] => none
  | ifa :: ifap =>
    match ifa.inet with
    | none => secondPass ifap
    | some ip => if ifa.loopback then secondPass ifap else some ip.text

/-- The return value, and what is written to `out_ip`; `ret` is the answer of `getifaddrs`. -/
def getLocalIp (ret : ℤ) (ifap : List IfAddr) (iface : Option Bytes) : ℤ × Option Bytes :=
  if ret ≠ 0 then (-1, none)
  else
    match firstPass iface ifap with
    | some ip => (0, some ip)
    | none =>
      match if iface.isSome then secondPass ifap else none with
      | some ip => (0, some ip)
      | none => (0, some loopbackText)

/-- `g_local_ip` of `main`, which is `127.0.0.1` before. -/
def mainLocalIp (ret : ℤ) (ifap : List IfAddr) (iface : Option Bytes) : Bytes :=
  let (r, out_ip) := getLocalIp ret ifap iface
  if r < 0 then loopbackText else out_ip.getD loopbackText

/-- `g_local_ip` of the discovery, which `discovery_start` copies. -/
def discoveryLocalIp (local_ip : Bytes) : Bytes := local_ip.take (inetAddrStrLen - 1)

/-! ### The host -/

/-- The host of a node: its interfaces as `getifaddrs` lists them, and the arguments of the node. -/
structure LocalHost where
  ret : ℤ
  ifap : List IfAddr
  iface : Option Bytes
  own_port : ℕ

/-- The non-loopback IPv4 addresses with the names of their interfaces. -/
def nonLoopback (ifap : List IfAddr) : List (Bytes × Ip) :=
  ifap.filterMap fun ifa => if ifa.loopback then none else ifa.inet.map fun ip => (ifa.name, ip)

namespace LocalHost

def addresses (h : LocalHost) : List (Bytes × Ip) := nonLoopback h.ifap

/-- The first address on the interface that was asked for, or else the first address. -/
def firstAddress (h : LocalHost) : Bytes :=
  if h.ret ≠ 0 then loopbackText
  else
    ((h.addresses.filter fun x => h.iface.all (· = x.1)).head?.or h.addresses.head?).elim
      loopbackText fun x => x.2.text

/-- The address with which the listener compares. -/
def localIp (h : LocalHost) : Bytes := discoveryLocalIp (mainLocalIp h.ret h.ifap h.iface)

end LocalHost

/-- A HELLO that reaches the listener of a node. The kernel may take any non-loopback address of
the host as the source of a broadcast of the node itself. -/
structure HelloDatagram (h : LocalHost) where
  own : Bool
  src : Ip
  src_port : ℕ
  port : ℕ
  hostname : Bytes
  own_src : own = true → src ∈ h.addresses.map Prod.snd
  own_port : own = true → port = h.own_port

namespace HelloDatagram

variable {h : LocalHost}

def data (d : HelloDatagram h) : Bytes := broadcastPacket msgHello d.port d.hostname

/-- The listener does nothing with the datagram. -/
def Ignored (d : HelloDatagram h) : Prop :=
  handleAnnouncement h.localIp (some (⟨d.src.text, d.src_port⟩, d.data.take listenBufSize)) =
    return ()

end HelloDatagram

/-! ### The two loops -/

lemma nonLoopback_cons (ifa : IfAddr) (ifap : List IfAddr) :
    nonLoopback (ifa :: ifap) =
      (if ifa.loopback then none else ifa.inet.map fun ip => (ifa.name, ip)).toList ++
        nonLoopback ifap := by
  rw [nonLoopback, List.filterMap_cons]
  cases (if ifa.loopback then none else ifa.inet.map fun ip => (ifa.name, ip)) <;> rfl

lemma firstPass_eq (iface : Option Bytes) (ifap : List IfAddr) :
    firstPass iface ifap =
      ((nonLoopback ifap).filter fun x => iface.all (· = x.1)).head?.map fun x => x.2.text := by
  induction ifap with
  | nil => rfl
  | cons ifa ifap ih =>
    rw [nonLoopback_cons, firstPass, ih]
    cases hip : ifa.inet with
    | none => simp
    | some ip =>
      cases hl : ifa.loopback with
      | true => simp
      | false =>
        cases iface with
        | none => simp
        | some name =>
          by_cases hname : name = ifa.name
          · simp [hname]
          · have hne : ifa.name ≠ name := fun he => hname he.symm
            simp [hname, hne]

lemma secondPass_eq (ifap : List IfAddr) :
    secondPass ifap = (nonLoopback ifap).head?.map fun x => x.2.text := by
  induction ifap with
  | nil => rfl
  | cons ifa ifap ih =>
    rw [nonLoopback_cons, secondPass, ih]
    cases hip : ifa.inet with
    | none => simp
    | some ip => cases hl : ifa.loopback <;> simp

/-- The listener compares with the first address. -/
lemma localIp_eq (h : LocalHost) : h.localIp = h.firstAddress := by
  have hcut : ∀ ip : Ip, discoveryLocalIp ip.text = ip.text := fun ip =>
    List.take_of_length_le ip.length_le
  have hloop : discoveryLocalIp loopbackText = loopbackText := by decide
  rw [LocalHost.localIp, mainLocalIp, getLocalIp, LocalHost.firstAddress]
  by_cases hret : h.ret ≠ 0
  · rw [if_pos hret, if_pos hret]
    exact hloop
  · rw [if_neg hret, if_neg hret, firstPass_eq, secondPass_eq]
    rw [LocalHost.addresses]
    cases hnamed : ((nonLoopback h.ifap).filter fun x => h.iface.all (· = x.1)).head? with
    | some x => exact hcut x.2
    | none =>
      cases hi : h.iface with
      | none =>
        -- without a name the first loop has refused no address
        rw [hi] at hnamed
        have hnil : nonLoopback h.ifap = [] := by simpa using hnamed
        rw [hnil]
        exact hloop
      | some name =>
        cases hany : (nonLoopback h.ifap).head? with
        | some x => exact hcut x.2
        | none => exact hloop

namespace HelloDatagram

variable {h : LocalHost} (d : HelloDatagram h)

/-- The listener ignores exactly what comes from the first address. -/
lemma ignored_iff : d.Ignored ↔ d.src.text = h.firstAddress := by
  have hne : msgHello ≠ msgBye := by decide
  rw [Ignored, data, take_broadcastPacket, localIp_eq]
  by_cases hsrc : d.src.text = h.firstAddress
  · simp [handleAnnouncement, hsrc]
  · simp only [hsrc, iff_false]
    intro he
    simp [handleAnnouncement, hsrc, UdpCall.doPeerListAdd, Prog.perform] at he

end HelloDatagram

/-- For every list of interfaces, every `--iface` argument and every HELLO that reaches the
listener: it is ignored exactly if the node itself has sent it, if and only if the source of a
HELLO of the node is the first address and that of a HELLO of another node is not. -/
theorem ignored_iff_own (h : LocalHost) (d : HelloDatagram h) :
    (d.Ignored ↔ d.own = true) ↔
      (d.own = true → d.src.text = h.firstAddress) ∧
        (d.own = false → d.src.text ≠ h.firstAddress) := by
  rw [d.ignored_iff]
  cases d.own with
  | true => simp
  | false => simp

/-! ### A host with two addresses and two nodes -/

/-- The addresses `127.0.0.1`, `10.0.0.1` and `10.0.1.1`. -/
def loIp : Ip where
  text := loopbackText
  ne_nil := by decide
  no_nul := by decide
  length_le := by decide

def ethIp : Ip where
  text := [49, 48, 46, 48, 46, 48, 46, 49]
  ne_nil := by decide
  no_nul := by decide
  length_le := by decide

def wlanIp : Ip where
  text := [49, 48, 46, 48, 46, 49, 46, 49]
  ne_nil := by decide
  no_nul := by decide
  length_le := by decide

/-- The host of a node started without arguments. -/
def twoHomed : LocalHost where
  ret := 0
  ifap := [⟨[108], some loIp, true⟩, ⟨[101], some ethIp, false⟩, ⟨[119], some wlanIp, false⟩]
  iface := none
  own_port := defaultWorkerPort

/-- A HELLO of the node itself, sent from the second address. -/
def ownHello : HelloDatagram twoHomed where
  own := true
  src := wlanIp
  src_port := 40000
  port := defaultWorkerPort
  hostname := [104]
  own_src := fun _ => List.mem_cons_of_mem _ (List.mem_singleton_self wlanIp)
  own_port := fun _ => rfl

/-- A HELLO of the node on port 7778 of the same host, sent from the first address. -/
def otherHello : HelloDatagram twoHomed where
  own := false
  src := ethIp
  src_port := 40001
  port := 7778
  hostname := [104]
  own_src := nofun
  own_port := nofun

/-- The node lists itself, and it does not list the other node on its host. -/
theorem exclusion_wrong_twice :
    (ownHello.own = true ∧ ¬ ownHello.Ignored) ∧ otherHello.own = false ∧ otherHello.Ignored := by
  refine ⟨⟨rfl, ?_⟩, rfl, ?_⟩
  · rw [ownHello.ignored_iff]
    decide
  · rw [otherHello.ignored_iff]
    decide

end P2PNode
