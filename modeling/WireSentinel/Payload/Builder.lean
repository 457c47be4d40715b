import WireSentinel.Lib.Json
import WireSentinel.Packet.Record

/-!
# The payload builder

`generate_json_payload` of `jsonparser.c`: the packet list as a JSON text,
put together in two fixed buffers. `none` is a write behind the end of one.
-/

namespace WireSentinel

open Json (quoted)
open Text (lit strcat snprintf signed)

def maxJsonSize : Nat := 1024 * 1024 * 3

/-- A table of `services_table.h`: the name of each listed port. -/
structure ServicesTable where
  entry : Nat → Option CString
  length_le : ∀ port, ∀ name ∈ entry port, name.length ≤ 200

def httpTable : ServicesTable where
  entry port := if port = 80 then some (lit "http") else none
  length_le port name h := by
    split at h
    · obtain rfl := Option.mem_some_iff.mp h
      simp
    · simp at h

structure Services where
  tcp : ServicesTable
  udp : ServicesTable

-- ---------------------------------------------------------------------------
-- Lines
-- ---------------------------------------------------------------------------

/-- `"      \"key\": value"`, as every line of a packet starts. -/
def line (key : String) (value : CString) : CString :=
  lit "      \"" ++ lit key ++ lit "\": " ++ value

/-- A flag's line, after `(flag)? … : …`. -/
def flagLine (key : String) (b : UInt8) : CString :=
  line key (if b ≠ 0 then lit "true" else lit "false") ++ lit ",\n"

/-- `\"key\": \"%s\",` -/
def textLine (key : String) (s : CString) : CString := line key (quoted s) ++ lit ",\n"

/-- `\"key\": %d,` and `\"key\": %ld,` -/
def numberLine (key : String) (n : Int) : CString := line key (signed n) ++ lit ",\n"

/-- The text `snprintf` makes of the record's first thirteen fields. -/
def packetFields (pkt : FullInternetPacket) : CString := List.flatten [
  lit "    \x7b\n",
  textLine "timestamp" pkt.timestamp,
  textLine "macAdressOrigem" pkt.macOrigem,
  textLine "macAdressDestino" pkt.macDestino,
  textLine "protocoloIp" pkt.protocoloIp,
  textLine "ipOrigem" pkt.ipOrigem,
  textLine "ipDestino" pkt.ipDestino,
  line "tempoDeVida" (signed pkt.tempoVida) ++ lit ", \n",
  numberLine "tamanhoTotalHeader" pkt.totalHeaderLenght,
  numberLine "tamanhoTotalPacote" pkt.tamanhoTotalPacket,
  numberLine "portaOrigem" pkt.portaOrigem,
  numberLine "portaDestino" pkt.portaDestino,
  numberLine "tcpSeq" pkt.tcpSeq,
  numberLine "tcpAckSeq" pkt.tcpAckSeq]

def flagLines (pkt : FullInternetPacket) : List CString :=
  [flagLine "tcpAck" pkt.tcpAck, flagLine "tcpFin" pkt.tcpFin, flagLine "tcpSyn" pkt.tcpSyn,
    flagLine "tcpRst" pkt.tcpRst, flagLine "tcpPsh" pkt.tcpPsh, flagLine "tcpUrg" pkt.tcpUrg,
    flagLine "tcpCwr" pkt.tcpCwr, flagLine "tcpEce" pkt.tcpEce, flagLine "isVlan" pkt.isVlan]

/-- `port > 0 && table[port] != NULL` -/
def listed (table : ServicesTable) (port : Nat) : Option CString :=
  if port > 0 then table.entry port else none

/-- The application line of a TCP or UDP packet; a listed name goes through
`buffer_aplicacao`. -/
def applicationLine (table : ServicesTable) (pkt : FullInternetPacket) : CString :=
  match listed table pkt.portaDestino with
  | some name => snprintf 256 (line "protocolo_aplicacao" (quoted name) ++ lit "\n")
  | none =>
    match listed table pkt.portaOrigem with
    | some name => snprintf 256 (line "protocolo_aplicacao" (quoted name) ++ lit "\n")
    | none => line "protocolo_aplicacao" (quoted (lit "Unknown/None")) ++ lit "\n"

/-- The switch over `protocolo_transporte`. -/
def transportLines (services : Services) (pkt : FullInternetPacket) : List CString :=
  let transporte (name : String) (last : String) : CString :=
    line "protocolo_transporte" (quoted (lit name)) ++ lit last
  if pkt.protocoloTransporte = 1 then [transporte "ICMP" "\n"]
  else if pkt.protocoloTransporte = 5 then [transporte "STREAM" "\n"]
  else if pkt.protocoloTransporte = 6 then
    [transporte "TCP" ",\n", applicationLine services.tcp pkt]
  else if pkt.protocoloTransporte = 17 then
    [transporte "UDP" ",\n", applicationLine services.udp pkt]
  else if pkt.protocoloTransporte = 58 then [transporte "ICMPv6" "\n"]
  else [transporte "Unknown/None" "\n"]

-- ---------------------------------------------------------------------------
-- Buffers
-- ---------------------------------------------------------------------------

/-- What is appended to `temporary_buffer` behind the first fields. -/
def packetPieces (services : Services) (pkt : FullInternetPacket) (more : Bool) : List CString :=
  flagLines pkt ++ transportLines services pkt ++ [lit "    \x7d"] ++
    if more then [lit ",\n"] else []

/-- `temporary_buffer` at the end of a turn of the loop; `more` says whether
`next` is not `NULL`. -/
def packetBuffer (services : Services) (pkt : FullInternetPacket) (more : Bool) : Option CString :=
  (packetPieces services pkt more).foldlM (strcat 2048) (snprintf 2048 (packetFields pkt))

def appendPackets (services : Services) : List FullInternetPacket → CString → Option CString
  | [], buffer => some buffer
  | pkt :: rest, buffer => do
    let temporaryBuffer ← packetBuffer services pkt (!rest.isEmpty)
    let buffer ← strcat maxJsonSize buffer temporaryBuffer
    appendPackets services rest buffer

def generateJsonPayload (services : Services) (pkts : List FullInternetPacket) :
    Option CString := do
  let buffer ← strcat maxJsonSize [] (lit "\x7b\n  \"packets\": [\n")
  let buffer ← appendPackets services pkts buffer
  strcat maxJsonSize buffer (lit "\n  ]\n\x7d\n")

end WireSentinel
