import P2PNode.Lib.BigEndian

/-!
# Limits and wire protocol (`common.h`)

Multi-byte fields are kept as numbers; `be16` and `be32` are `htons` and `htonl` followed by the
copy into the packet, `ofBe` is the copy out of the packet followed by `ntohs` or `ntohl`.
-/

namespace P2PNode

abbrev Bytes := List UInt8

/-- A file or socket descriptor, a C `int`. -/
abbrev Fd := ℤ

/-- The address of a heap block. -/
abbrev Ptr := ℕ

/-! ### Ports and limits -/

def discoveryPort : ℕ := 9999
def defaultWorkerPort : ℕ := 7777

def maxPeers : ℕ := 64
def maxHostnameLen : ℕ := 64
def maxFilenameLen : ℕ := 256
def maxFileSize : ℕ := 4 * 1024 * 1024
def outputBufSize : ℕ := 4096
def peerTimeoutSecs : ℤ := 30
def discoveryInterval : ℕ := 5
def maxConcurrentTasks : ℕ := 8
def inetAddrStrLen : ℕ := 16

/-! ### Byte order -/

/-- `htons`, then the two bytes as they lie in memory. -/
def be16 (n : ℕ) : Bytes := BigEndian.encode 2 n

/-- `htonl`, then the four bytes as they lie in memory. -/
def be32 (n : ℕ) : Bytes := BigEndian.encode 4 n

/-- `ntohs`/`ntohl` of the given bytes. -/
def ofBe (bs : Bytes) : ℕ := BigEndian.decode bs

@[simp] lemma length_be16 (n : ℕ) : (be16 n).length = 2 := BigEndian.length_encode 2 n
@[simp] lemma length_be32 (n : ℕ) : (be32 n).length = 4 := BigEndian.length_encode 4 n

@[simp] lemma ofBe_be16 {n : ℕ} (h : n < 2 ^ 16) : ofBe (be16 n) = n :=
  BigEndian.decode_encode (by simpa using h)

@[simp] lemma ofBe_be32 {n : ℕ} (h : n < 2 ^ 32) : ofBe (be32 n) = n :=
  BigEndian.decode_encode (by simpa using h)

/-! ### Message types -/

/-- `msg_type_t`, a packed enumeration: any byte can arrive, the named values are below. -/
abbrev MsgType := UInt8

def msgHello : MsgType := 0x01
def msgBye : MsgType := 0x02
def msgLoadReq : MsgType := 0x03
def msgLoadResp : MsgType := 0x04
def msgTaskFile : MsgType := 0x06
def msgOutput : MsgType := 0x07
def msgTaskDone : MsgType := 0x08

/-! ### The message header -/

/-- `msg_header_t` with its fields in host order. -/
structure MsgHeader where
  type : MsgType
  flags : UInt8 := 0
  payload_len : ℕ
  reserved : ℕ := 0

/-- `sizeof(msg_header_t)`. -/
def headerSize : ℕ := 8

/-- The packed header as it is sent. -/
def MsgHeader.bytes (h : MsgHeader) : Bytes :=
  h.type :: h.flags :: (be32 h.payload_len ++ be16 h.reserved)

/-- The `type` field of a header copied from `bs`. -/
def headerType (bs : Bytes) : MsgType := bs.headD 0

/-- The `payload_len` field of a header copied from `bs`, in host order. -/
def headerLen (bs : Bytes) : ℕ := ofBe ((bs.drop 2).take 4)

@[simp] lemma MsgHeader.length_bytes (h : MsgHeader) : h.bytes.length = headerSize := by
  simp [MsgHeader.bytes, headerSize]

@[simp] lemma headerType_bytes (h : MsgHeader) (s : Bytes) :
    headerType (h.bytes ++ s) = h.type := rfl

lemma headerType_take {data : Bytes} {n : ℕ} (h : 0 < n) :
    headerType (data.take n) = headerType data := by
  cases data with
  | nil => rw [List.take_nil]
  | cons b bs =>
    obtain ⟨m, rfl⟩ := Nat.exists_eq_succ_of_ne_zero h.ne'
    rfl

@[simp] lemma headerLen_bytes {h : MsgHeader} (hl : h.payload_len < 2 ^ 32) (s : Bytes) :
    headerLen (h.bytes ++ s) = h.payload_len := by
  have htake : ((h.bytes ++ s).drop 2).take 4 = be32 h.payload_len := by
    simp [MsgHeader.bytes]
  rw [headerLen, htake, ofBe_be32 hl]

/-! ### Payloads -/

/-- `payload_load_resp_t` with its fields in host order; `load_pct` is the bit pattern of the
`float`. -/
structure LoadResp where
  load_pct : ℕ
  active_tasks : ℕ
  total_tasks : ℕ
  num_cores : ℕ
  deriving DecidableEq

/-- `sizeof(payload_load_resp_t)`. -/
def loadRespSize : ℕ := 16

def LoadResp.bytes (r : LoadResp) : Bytes :=
  be32 r.load_pct ++ be32 r.active_tasks ++ be32 r.total_tasks ++ be32 r.num_cores

/-- The fields of a `payload_load_resp_t` copied from `bs`, in host order. -/
def LoadResp.ofBytes (bs : Bytes) : LoadResp where
  load_pct := ofBe (bs.take 4)
  active_tasks := ofBe ((bs.drop 4).take 4)
  total_tasks := ofBe ((bs.drop 8).take 4)
  num_cores := ofBe ((bs.drop 12).take 4)

/-- The bytes of a `char` array up to its first `NUL`. -/
def cstr (buf : Bytes) : Bytes := buf.takeWhile (· ≠ 0)

/-! ### Peers and tasks -/

/-- `peer_info_t`. `ip` is the text in the array; `load_pct` is the bit pattern of the `float`. -/
structure PeerInfo where
  ip : Bytes := []
  port : ℕ := 0
  load_pct : ℕ := 0
  active_tasks : ℕ := 0
  total_tasks : ℕ := 0
  num_cores : ℕ := 0
  last_seen : ℤ := 0
  valid : Bool := false
  deriving DecidableEq

/-- `task_t`; the only task type is `TASK_FILE`. -/
structure Task where
  filename : Bytes
  file_data : Bytes
  file_size : ℕ

end P2PNode
