/-
The packets the HBRP client (`internal/hbrp/packets.go`) builds: the login,
key, configuration, ping and close handshake packets and the DMRD data packet.
Each `send…` queues one datagram on `connTX`, modelled as the list of the
datagrams queued so far.

SHA-256 is the parameter `sha256`: the results below hold for every function
returning 32 bytes.
-/
import Ipsc2Hbrp.Config.Single
import Ipsc2Hbrp.Proto.Codec

namespace Ipsc2Hbrp.Client

open Go Config.Single Proto

/-- The fields of `HBRPClient` the send functions touch. -/
structure HBRPClient where
  config : Config
  connTX : List Bytes

def HBRPClient.send (h : HBRPClient) (data : Bytes) : HBRPClient :=
  { h with connTX := h.connTX ++ [data] }

/-! ### The handshake packets -/

def hexID (id : UInt32) : Bytes := (copy (make 8) (formatUint 16 8 id.toNat)).1

/-- The body `sendLogin`, `sendRPTCL` and `sendPing` share: a buffer of
`len(tag)+8` bytes with `tag` copied in, then `hexid` after it. -/
def sendTagged (tag : Bytes) (h : HBRPClient) : HBRPClient :=
  let hexid := hexID h.config.hbrp.id
  let (data, n) := copy (make (tag.length + 8)) tag
  h.send (copyAt data n hexid)

def sendLogin : HBRPClient → HBRPClient := sendTagged (utf8 "RPTL")

def sendRPTCL : HBRPClient → HBRPClient := sendTagged (utf8 "RPTCL")

def sendPing : HBRPClient → HBRPClient := sendTagged (utf8 "MSTPING")

/-- `sendRPTK(random)`: the `%x` token of `sha256(random ++ password)` after the tag
and `hexid` in a buffer of `4+8+64` bytes. -/
def sendRPTK (sha256 : Bytes → Mathlib.Vector UInt8 32) (random : Bytes) (h : HBRPClient) :
    HBRPClient :=
  let token := formatHexBytes (sha256 (random ++ h.config.hbrp.password)).toList
  let hexid := hexID h.config.hbrp.id
  let (data, n) := copy (make ((utf8 "RPTK").length + 8 + 64)) (utf8 "RPTK")
  let data := copyAt data n hexid
  h.send (copyAt data (n + 8) token)

def sendRPTC (h : HBRPClient) : HBRPClient :=
  let c := h.config.hbrp
  let str := utf8 "RPTC"
  let str := str ++ padRight 8 c.callsign
  let str := str ++ formatUint 16 8 c.id.toNat
  let str := str ++ formatUint 10 9 c.rxFreq
  let str := str ++ formatUint 10 9 c.txFreq
  let str := str ++ formatUint 10 2 c.txPower.toNat
  let str := str ++ formatUint 10 2 c.colorCode.toNat
  let str := str ++ (padRight 8 (formatFloat c.latitude)).take 8
  let str := str ++ (padRight 9 (formatFloat c.longitude)).take 9
  let str := str ++ formatUint 10 3 c.height.toNat
  let str := str ++ padRight 20 c.location
  let str := str ++ padRight 20 c.description
  let str := str ++ padRight 124 c.url
  let str := str ++ padRight 40 []
  let str := str ++ padRight 40 []
  h.send str

def sendPacket (packet : Packet) (h : HBRPClient) : HBRPClient :=
  h.send (copy (make 53) packet.encode).1

@[simp] theorem send_connTX (h : HBRPClient) (data : Bytes) :
    (h.send data).connTX = h.connTX ++ [data] := rfl

@[simp] theorem send_config (h : HBRPClient) (data : Bytes) : (h.send data).config = h.config :=
  rfl

/-! ### What the handshake packets hold -/

theorem id_spells (id : UInt32) : Spells 16 8 id.toNat (formatUint 16 8 id.toNat) :=
  formatUint_spells (by decide) le_rfl (by decide) id.toNat_lt_size

theorem hexID_eq (id : UInt32) : hexID id = formatUint 16 8 id.toNat :=
  copy_make (id_spells id).1

theorem sendTagged_connTX (tag : Bytes) (h : HBRPClient) :
    (sendTagged tag h).connTX = h.connTX ++ [tag ++ hexID h.config.hbrp.id] := by
  have eight : (hexID h.config.hbrp.id).length = 8 := by rw [hexID_eq]; exact (id_spells _).1
  simp only [sendTagged, send_connTX]
  rw [copy_make_of_le (Nat.le_add_right tag.length 8), Nat.add_sub_cancel_left,
    copyAt_make (Nat.le_of_eq eight), eight, Nat.sub_self, make, List.replicate_zero,
    List.append_nil]

theorem token_decodes (digest : Mathlib.Vector UInt8 32) :
    (formatHexBytes digest.toList).length = 64 ∧
      (∀ c ∈ formatHexBytes digest.toList, c ∈ ldigits.take 16) ∧
      hexDecode (formatHexBytes digest.toList) = some digest.toList := by
  obtain ⟨length, digits, decodes⟩ := formatHexBytes_decodes digest.toList
  exact ⟨by rw [length, digest.toList_length], digits, decodes⟩

theorem sendRPTK_connTX (sha256 : Bytes → Mathlib.Vector UInt8 32) (random : Bytes)
    (h : HBRPClient) :
    (sendRPTK sha256 random h).connTX = h.connTX ++
      [utf8 "RPTK" ++ hexID h.config.hbrp.id ++
        formatHexBytes (sha256 (random ++ h.config.hbrp.password)).toList] := by
  have eight : (hexID h.config.hbrp.id).length = 8 := by rw [hexID_eq]; exact (id_spells _).1
  have sixtyFour := (token_decodes (sha256 (random ++ h.config.hbrp.password))).1
  have prefixLength : (utf8 "RPTK" ++ hexID h.config.hbrp.id).length = (utf8 "RPTK").length + 8 := by
    rw [List.length_append, eight]
  simp only [sendRPTK, Nat.add_assoc, copy_make_of_le (Nat.le_add_right (utf8 "RPTK").length _),
    Nat.add_sub_cancel_left]
  rw [copyAt_make (by omega), ← prefixLength, eight, copyAt_make (by omega), sixtyFour, Nat.sub_self,
    make, List.replicate_zero, List.append_nil, send_connTX]

/-- The four fixed-size handshake packets: the tag, the eight hex digits of the
radio ID, and for `RPTK` the 64 hex digits of the digest of nonce and password. -/
theorem handshake_packets (sha256 : Bytes → Mathlib.Vector UInt8 32) (nonce : Bytes)
    (h : HBRPClient) :
    ∃ hex, Spells 16 8 h.config.hbrp.id.toNat hex ∧
      (sendLogin h).connTX = h.connTX ++ [utf8 "RPTL" ++ hex] ∧
      (sendRPTCL h).connTX = h.connTX ++ [utf8 "RPTCL" ++ hex] ∧
      (sendPing h).connTX = h.connTX ++ [utf8 "MSTPING" ++ hex] ∧
      ∃ token, token.length = 64 ∧ (∀ c ∈ token, c ∈ ldigits.take 16) ∧
        hexDecode token = some (sha256 (nonce ++ h.config.hbrp.password)).toList ∧
        (sendRPTK sha256 nonce h).connTX = h.connTX ++ [utf8 "RPTK" ++ hex ++ token] := by
  obtain ⟨length, digits, decodes⟩ := token_decodes (sha256 (nonce ++ h.config.hbrp.password))
  refine ⟨hexID h.config.hbrp.id, hexID_eq _ ▸ id_spells _, sendTagged_connTX _ h,
    sendTagged_connTX _ h, sendTagged_connTX _ h, _, length, digits, decodes,
    sendRPTK_connTX sha256 nonce h⟩

/-- The key packet keeps the whole digest: two nonces give the same packet
exactly when the digests of nonce and password agree. -/
theorem sendRPTK_eq_iff (sha256 : Bytes → Mathlib.Vector UInt8 32) (first second : Bytes)
    (h : HBRPClient) :
    (sendRPTK sha256 first h).connTX = (sendRPTK sha256 second h).connTX ↔
      sha256 (first ++ h.config.hbrp.password) = sha256 (second ++ h.config.hbrp.password) := by
  rw [sendRPTK_connTX, sendRPTK_connTX]
  constructor
  · intro same
    have tokens := List.append_cancel_left (List.singleton_injective (List.append_cancel_left same))
    have decoded := congrArg hexDecode tokens
    rw [(token_decodes _).2.2, (token_decodes _).2.2] at decoded
    exact Subtype.ext (Option.some_injective _ decoded)
  · intro same
    rw [same]

end Ipsc2Hbrp.Client
