import WireSentinel.Payload.Size

/-!
# The payload is JSON

`payload_decodes`: the text the builder writes is derived by the JSON
grammar, and a decoder gets back what each record says.
-/

namespace WireSentinel

open Json (quoted Unescaped Blank Derives)
open Text (lit lit_eq signed)

variable {pkt : FullInternetPacket} {pkts : List FullInternetPacket}

-- ---------------------------------------------------------------------------
-- Characters
-- ---------------------------------------------------------------------------

instance (cs : CString) : Decidable (∀ c ∈ cs, Unescaped c) := List.decidableBAll _ cs

theorem unescaped_hexDigit (h : Text.IsHexDigit c) : Unescaped c := by
  have all : ∀ c ∈ "0123456789abcdef".toList, Unescaped c := by decide
  exact all c h

theorem unescaped_digit (h : c.isDigit = true) : Unescaped c := by
  simp only [Char.isDigit, Bool.and_eq_true, decide_eq_true_eq] at h
  refine ⟨?_, ?_, Char.le_def.mpr (Nat.le_trans (by decide) h.1)⟩ <;> rintro rfl <;> simp at h

theorem unescaped_intercalate {xs : List CString} (hc : Unescaped c)
    (h : ∀ x ∈ xs, ∀ d ∈ x, Unescaped d) :
    ∀ d ∈ [c].intercalate xs, Unescaped d := by
  intro d hd
  rcases Text.mem_intercalate hd with hd | ⟨x, hx, hd⟩
  · rwa [List.mem_singleton.mp hd]
  · exact h x hx d hd

theorem unescaped_macText (raw : List UInt8) : ∀ c ∈ macText raw, Unescaped c := by
  refine unescaped_intercalate (by decide) ?_
  simp only [List.forall_mem_map]
  exact fun b _ c hc => unescaped_hexDigit (Text.isHexDigit_of_mem_hexByte hc)

theorem unescaped_ipv4Text (raw : List UInt8) : ∀ c ∈ ipv4Text raw, Unescaped c := by
  refine unescaped_intercalate (by decide) ?_
  simp only [List.forall_mem_map]
  exact fun b _ c hc => unescaped_digit (Text.decimal_isDigit hc)

theorem unescaped_ipv6Text (raw : List UInt8) : ∀ c ∈ ipv6Text raw, Unescaped c :=
  unescaped_intercalate (by decide) fun _ hg _ hc =>
    unescaped_hexDigit ((formed_of_mem_hexGroups hg).2 _ hc)

theorem unescaped_getTime (now : Tm) : ∀ c ∈ getTime now, Unescaped c := by
  have htwo : ∀ n < 100, ∀ c ∈ twoDigits n, Unescaped c := by decide
  intro c hc
  simp only [getTime, List.mem_append, List.mem_cons, or_assoc] at hc
  rcases hc with hc | rfl | hc | rfl | hc | rfl | hc | rfl | hc | rfl | hc
  · exact unescaped_digit (Text.decimal_isDigit hc)
  · decide
  · exact htwo _ now.mon_lt c hc
  · decide
  · exact htwo _ now.mday_lt c hc
  · decide
  · exact htwo _ now.hour_lt c hc
  · decide
  · exact htwo _ now.min_lt c hc
  · decide
  · exact htwo _ now.sec_lt c hc

structure PlainTexts (pkt : FullInternetPacket) : Prop where
  timestamp : ∀ c ∈ pkt.timestamp, Unescaped c
  macOrigem : ∀ c ∈ pkt.macOrigem, Unescaped c
  macDestino : ∀ c ∈ pkt.macDestino, Unescaped c
  protocoloIp : ∀ c ∈ pkt.protocoloIp, Unescaped c
  ipOrigem : ∀ c ∈ pkt.ipOrigem, Unescaped c
  ipDestino : ∀ c ∈ pkt.ipDestino, Unescaped c

theorem FullInternetPacket.WellFormed.plainTexts (h : pkt.WellFormed) : PlainTexts pkt := by
  obtain ⟨⟨⟨raw, -, hmo⟩, ⟨raw', -, hmd⟩, htexts, -, -⟩, -, -, now, htime⟩ := h
  have hip : (∀ c ∈ pkt.protocoloIp, Unescaped c) ∧ (∀ c ∈ pkt.ipOrigem, Unescaped c) ∧
      ∀ c ∈ pkt.ipDestino, Unescaped c := by
    cases htexts with
    | ipv4 name s d hs hd origem destino =>
      rw [name, origem, destino]
      exact ⟨by decide, unescaped_ipv4Text s, unescaped_ipv4Text d⟩
    | ipv6 name s d hs hd origem destino =>
      rw [name, origem, destino]
      exact ⟨by decide, unescaped_ipv6Text s, unescaped_ipv6Text d⟩
    | nonIp name origem destino _ =>
      have hname : ∀ n ∈ ["ARP", "RARP", "MPLS Unicast", "MPLS Multicast", "PPPoE Session",
          "PPPoE Discovery", "Unknown"].map String.toList, ∀ c ∈ n, Unescaped c := by decide
      rw [origem, destino]
      exact ⟨hname _ name, by decide, by decide⟩
  exact ⟨htime ▸ unescaped_getTime now, hmo ▸ unescaped_macText raw, hmd ▸ unescaped_macText raw',
    hip.1, hip.2.1, hip.2.2⟩

-- ---------------------------------------------------------------------------
-- Lines and objects
-- ---------------------------------------------------------------------------

/-- A line of a packet: the member it writes, the text of its value, and
what is printed behind that. -/
structure Field where
  key : String
  value : Json
  text : CString
  sep : CString

def Field.render (f : Field) : CString := line f.key f.text ++ f.sep

def Field.member (f : Field) : CString × Json := (f.key.toList, f.value)

/-- A field whose text is its value's. -/
structure Field.Valid (f : Field) : Prop where
  key : ∀ c ∈ f.key.toList, Unescaped c
  text : Derives (.value f.value) f.text

/-- Each field is separated from the next by a comma, and nothing but white
space follows the last. -/
def Separated : List Field → Prop
  | [] => False
  | [f] => Blank f.sep
  | f :: g :: fs => (∃ w, Blank w ∧ f.sep = ',' :: w) ∧ Separated (g :: fs)

def indent : CString := "      ".toList

theorem blank_indent : Blank indent := by decide

theorem blank_space : Blank [' '] := by decide

theorem blank_newline_two : Blank ('\n' :: "  ".toList) := by decide

theorem blank_newline_four : Blank ('\n' :: "    ".toList) := by decide

theorem line_eq (key : String) (value : CString) :
    line key value = indent ++ (quoted key.toList ++ ([] ++ ':' :: ([' '] ++ value))) := by
  have hindent : indent = lit "      " := (lit_eq _).symm
  rw [hindent]
  simp only [line, lit_eq, quoted, String.reduceToList, List.append_assoc, List.cons_append,
    List.nil_append]

/-- Separated fields write the members of an object, indented. -/
theorem derives_fields {fs : List Field} (hs : Separated fs) (hv : ∀ f ∈ fs, f.Valid) :
    ∃ t w, (fs.map Field.render).flatten = indent ++ t ++ w ∧ Blank w ∧
      Derives (.members (fs.map Field.member)) t := by
  induction fs with
  | nil => exact hs.elim
  | cons f fs ih =>
    have hf := hv f (by simp)
    cases fs with
    | nil =>
      refine ⟨_, f.sep, ?_, hs, .oneMember hf.key Json.blank_nil blank_space hf.text⟩
      simp [Field.render, line_eq]
    | cons g fs =>
      obtain ⟨⟨w, hw, hsep⟩, hrest⟩ := hs
      obtain ⟨t, w', htext, hw', ht⟩ := ih hrest fun f hf => hv f (by simp [hf])
      refine ⟨_, w', ?_, hw', .moreMembers hf.key Json.blank_nil blank_space hf.text
        Json.blank_nil (Json.blank_append hw blank_indent) ht⟩
      rw [List.map_cons, List.flatten_cons, htext, Field.render, line_eq, hsep]
      simp

-- ---------------------------------------------------------------------------
-- A packet
-- ---------------------------------------------------------------------------

/-- The tables' names need no escapes. -/
def Services.Unescaped (services : Services) : Prop :=
  ∀ port, (∀ name ∈ services.tcp.entry port, ∀ c ∈ name, Json.Unescaped c) ∧
    ∀ name ∈ services.udp.entry port, ∀ c ∈ name, Json.Unescaped c

def textField (key : String) (s : CString) (sep : String) : Field :=
  ⟨key, .str s, quoted s, lit sep⟩

def numberField (key : String) (n : Int) (sep : String) : Field :=
  ⟨key, .num n, signed n, lit sep⟩

def flagField (key : String) (b : UInt8) : Field :=
  ⟨key, .bool (b ≠ 0), if b ≠ 0 then lit "true" else lit "false", lit ",\n"⟩

def transportName (p : Int) : String :=
  if p = 1 then "ICMP"
  else if p = 5 then "STREAM"
  else if p = 6 then "TCP"
  else if p = 17 then "UDP"
  else if p = 58 then "ICMPv6"
  else "Unknown/None"

def application (services : Services) (pkt : FullInternetPacket) : Option CString :=
  if pkt.protocoloTransporte = 6 then some (applicationName services.tcp pkt)
  else if pkt.protocoloTransporte = 17 then some (applicationName services.udp pkt)
  else none

def transportFields (services : Services) (pkt : FullInternetPacket) : List Field :=
  let name := (transportName pkt.protocoloTransporte).toList
  match application services pkt with
  | some app =>
    [textField "protocolo_transporte" name ",\n", textField "protocolo_aplicacao" app "\n"]
  | none => [textField "protocolo_transporte" name "\n"]

def baseFields (pkt : FullInternetPacket) : List Field := [
  textField "timestamp" pkt.timestamp ",\n",
  textField "macAdressOrigem" pkt.macOrigem ",\n",
  textField "macAdressDestino" pkt.macDestino ",\n",
  textField "protocoloIp" pkt.protocoloIp ",\n",
  textField "ipOrigem" pkt.ipOrigem ",\n",
  textField "ipDestino" pkt.ipDestino ",\n",
  numberField "tempoDeVida" pkt.tempoVida ", \n",
  numberField "tamanhoTotalHeader" pkt.totalHeaderLenght ",\n",
  numberField "tamanhoTotalPacote" pkt.tamanhoTotalPacket ",\n",
  numberField "portaOrigem" pkt.portaOrigem ",\n",
  numberField "portaDestino" pkt.portaDestino ",\n",
  numberField "tcpSeq" pkt.tcpSeq ",\n",
  numberField "tcpAckSeq" pkt.tcpAckSeq ",\n",
  flagField "tcpAck" pkt.tcpAck,
  flagField "tcpFin" pkt.tcpFin,
  flagField "tcpSyn" pkt.tcpSyn,
  flagField "tcpRst" pkt.tcpRst,
  flagField "tcpPsh" pkt.tcpPsh,
  flagField "tcpUrg" pkt.tcpUrg,
  flagField "tcpCwr" pkt.tcpCwr,
  flagField "tcpEce" pkt.tcpEce,
  flagField "isVlan" pkt.isVlan]

def packetFieldList (services : Services) (pkt : FullInternetPacket) : List Field :=
  baseFields pkt ++ transportFields services pkt

def packetObject (services : Services) (pkt : FullInternetPacket) : Json :=
  .obj ((packetFieldList services pkt).map Field.member)

theorem transportLines_eq (services : Services) (pkt : FullInternetPacket) :
    (transportLines services pkt).flatten =
      ((transportFields services pkt).map Field.render).flatten := by
  have hname : ∀ name : String, lit name = name.toList := lit_eq
  unfold transportLines transportFields application transportName
  simp only [applicationLine_eq]
  split_ifs <;> simp_all [Field.render, textField]

theorem baseLines_eq (pkt : FullInternetPacket) :
    packetFields pkt ++ (flagLines pkt).flatten =
      lit "    \x7b\n" ++ ((baseFields pkt).map Field.render).flatten := by
  simp only [packetFields, flagLines, baseFields, List.map_cons, List.map_nil, List.flatten_cons,
    List.flatten_nil, List.append_assoc, List.append_nil, Field.render, textField, numberField,
    flagField, textLine, numberLine, flagLine]

theorem textField_valid (hkey : ∀ c ∈ key.toList, Json.Unescaped c)
    (hs : ∀ c ∈ s, Json.Unescaped c) (sep : String) : (textField key s sep).Valid :=
  ⟨hkey, .str hs⟩

theorem numberField_valid (hkey : ∀ c ∈ key.toList, Json.Unescaped c) (n : Int) (sep : String) :
    (numberField key n sep).Valid :=
  ⟨hkey, .num n⟩

theorem flagField_valid (hkey : ∀ c ∈ key.toList, Json.Unescaped c) (b : UInt8) :
    (flagField key b).Valid := by
  refine ⟨hkey, ?_⟩
  by_cases hb : b = 0
  · simpa [flagField, hb, lit_eq] using Derives.false
  · simpa [flagField, hb, lit_eq] using Derives.true

theorem applicationName_unescaped {table : ServicesTable}
    (h : ∀ port, ∀ name ∈ table.entry port, ∀ c ∈ name, Json.Unescaped c)
    (pkt : FullInternetPacket) : ∀ c ∈ applicationName table pkt, Json.Unescaped c := by
  have hlisted : ∀ port, ∀ name ∈ listed table port, ∀ c ∈ name, Json.Unescaped c := by
    intro port name hname
    unfold listed at hname
    split at hname
    · exact h port name hname
    · simp at hname
  unfold applicationName
  cases hd : listed table pkt.portaDestino with
  | some name => simpa using hlisted _ name hd
  | none =>
    cases ho : listed table pkt.portaOrigem with
    | some name => simpa using hlisted _ name ho
    | none =>
      rw [lit_eq]
      decide

theorem transportFields_valid {services : Services} (hserv : services.Unescaped)
    (pkt : FullInternetPacket) : ∀ f ∈ transportFields services pkt, f.Valid := by
  have hname : ∀ c ∈ (transportName pkt.protocoloTransporte).toList, Json.Unescaped c := by
    unfold transportName
    repeat' split
    all_goals decide
  have happ : ∀ app ∈ application services pkt, ∀ c ∈ app, Json.Unescaped c := by
    intro app happ
    unfold application at happ
    split at happ
    · obtain rfl := Option.mem_some_iff.mp happ
      exact applicationName_unescaped (fun port => (hserv port).1) pkt
    · split at happ
      · obtain rfl := Option.mem_some_iff.mp happ
        exact applicationName_unescaped (fun port => (hserv port).2) pkt
      · simp at happ
  unfold transportFields
  cases hc : application services pkt with
  | some app =>
    simp only [List.forall_mem_cons]
    exact ⟨textField_valid (by decide) hname _, textField_valid (by decide) (happ app hc) _,
      by simp⟩
  | none =>
    simp only [List.forall_mem_cons]
    exact ⟨textField_valid (by decide) hname _, by simp⟩

theorem baseFields_valid (h : PlainTexts pkt) : ∀ f ∈ baseFields pkt, f.Valid := by
  simp only [baseFields, List.forall_mem_cons]
  exact ⟨textField_valid (by decide) h.timestamp _, textField_valid (by decide) h.macOrigem _,
    textField_valid (by decide) h.macDestino _, textField_valid (by decide) h.protocoloIp _,
    textField_valid (by decide) h.ipOrigem _, textField_valid (by decide) h.ipDestino _,
    numberField_valid (by decide) _ _, numberField_valid (by decide) _ _,
    numberField_valid (by decide) _ _, numberField_valid (by decide) _ _,
    numberField_valid (by decide) _ _, numberField_valid (by decide) _ _,
    numberField_valid (by decide) _ _, flagField_valid (by decide) _, flagField_valid (by decide) _,
    flagField_valid (by decide) _, flagField_valid (by decide) _, flagField_valid (by decide) _,
    flagField_valid (by decide) _, flagField_valid (by decide) _, flagField_valid (by decide) _,
    flagField_valid (by decide) _, by simp⟩

theorem separated_append {fs gs : List Field} (hfs : ∀ f ∈ fs, ∃ w, Blank w ∧ f.sep = ',' :: w)
    (hgs : Separated gs) : Separated (fs ++ gs) := by
  induction fs with
  | nil => exact hgs
  | cons f fs ih =>
    have hrest := ih fun f hf => hfs f (by simp [hf])
    cases hc : fs ++ gs with
    | nil => simp [hc, Separated] at hrest
    | cons g rest =>
      rw [List.cons_append, hc]
      exact ⟨hfs f (by simp), hc ▸ hrest⟩

theorem packetFieldList_separated (services : Services) (pkt : FullInternetPacket) :
    Separated (packetFieldList services pkt) := by
  have hcomma : ∀ s ∈ [",\n", ", \n"], ∃ w, Blank w ∧ lit s = ',' :: w := by
    simp only [List.forall_mem_cons, lit_eq]
    exact ⟨⟨['\n'], by decide, rfl⟩, ⟨[' ', '\n'], by decide, rfl⟩, by simp⟩
  have hlast : Blank (lit "\n") := by
    rw [lit_eq]
    decide
  refine separated_append ?_ ?_
  · have hsep : ∀ f ∈ baseFields pkt, f.sep = lit ",\n" ∨ f.sep = lit ", \n" := by
      simp [baseFields, textField, numberField, flagField]
    intro f hf
    rcases hsep f hf with h | h
    · exact h ▸ hcomma _ (by simp)
    · exact h ▸ hcomma _ (by simp)
  · unfold transportFields
    split
    · exact ⟨hcomma _ (by simp), hlast⟩
    · exact hlast

theorem derives_packet {services : Services} (hserv : services.Unescaped) (h : pkt.WellFormed) :
    ∃ t, Derives (.value (packetObject services pkt)) t ∧
      ∀ more, packetText services pkt more = lit "    " ++ t ++ if more then lit ",\n" else [] := by
  obtain ⟨t, w, htext, hw, ht⟩ := derives_fields (packetFieldList_separated services pkt)
    (by
      intro f hf
      rcases List.mem_append.mp hf with hf | hf
      · exact baseFields_valid h.plainTexts f hf
      · exact transportFields_valid hserv pkt f hf)
  have hblank : Blank "    ".toList := by decide
  refine ⟨_, .obj (w := '\n' :: indent) (by decide) ht (Json.blank_append hw hblank),
    fun more => ?_⟩
  have hlines : packetFields pkt ++
      ((flagLines pkt).flatten ++ (transportLines services pkt).flatten) =
        lit "    \x7b\n" ++ (indent ++ t ++ w) := by
    rw [← List.append_assoc, baseLines_eq, transportLines_eq, List.append_assoc, ← htext,
      packetFieldList, List.map_append, List.flatten_append]
  have hopen : lit "    \x7b\n" = lit "    " ++ ['\x7b', '\n'] := by
    rw [lit_eq, lit_eq]
    rfl
  have hclose : lit "    \x7d" = "    ".toList ++ ['\x7d'] := by
    rw [lit_eq]
    rfl
  have htail : (if more then [lit ",\n"] else []).flatten = if more then lit ",\n" else [] := by
    split <;> simp
  unfold packetText packetPieces
  rw [List.flatten_append, htail, List.flatten_append, List.flatten_append, ← List.append_assoc,
    ← List.append_assoc, hlines, hopen, List.flatten_singleton, hclose]
  simp

theorem derives_packets {services : Services} (hserv : services.Unescaped) (hne : pkts ≠ [])
    (h : ∀ pkt ∈ pkts, pkt.WellFormed) :
    ∃ t, packetsText services pkts = lit "    " ++ t ∧
      Derives (.elements (pkts.map (packetObject services))) t := by
  induction pkts with
  | nil => exact absurd rfl hne
  | cons pkt rest ih =>
    obtain ⟨t, ht, htext⟩ := derives_packet hserv (h pkt (by simp))
    cases rest with
    | nil => exact ⟨t, by simp [packetsText, htext], .one ht⟩
    | cons next rest =>
      obtain ⟨t', htext', ht'⟩ := ih (by simp) fun pkt hp => h pkt (by simp [hp])
      refine ⟨_, ?_, .more ht Json.blank_nil blank_newline_four ht'⟩
      rw [packetsText, htext, htext']
      simp [lit_eq]

def payloadJson (services : Services) (pkts : List FullInternetPacket) : Json :=
  .obj [("packets".toList, .arr (pkts.map (packetObject services)))]

theorem payload_document {services : Services} (hserv : services.Unescaped) (hne : pkts ≠ [])
    (h : ∀ pkt ∈ pkts, pkt.WellFormed) :
    Json.Document (payloadJson services pkts) (payloadText services pkts) := by
  obtain ⟨t, htext, ht⟩ := derives_packets hserv hne h
  have hend : Blank ['\n'] := by decide
  have harr := Derives.arr blank_newline_four ht blank_newline_two
  have hmember := Derives.oneMember (k := "packets".toList) (by decide) Json.blank_nil blank_space
    harr
  have hobj := Derives.obj blank_newline_two hmember hend
  refine ⟨[], _, ['\n'], ?_, Json.blank_nil, hobj, hend⟩
  rw [payloadText, htext]
  simp [lit_eq, quoted]

-- ---------------------------------------------------------------------------
-- Reading it back
-- ---------------------------------------------------------------------------

/-- What a reader of the payload learns about a packet. -/
structure PacketView where
  timestamp : CString
  macAdressOrigem : CString
  macAdressDestino : CString
  protocoloIp : CString
  ipOrigem : CString
  ipDestino : CString
  tempoDeVida : Int
  tamanhoTotalHeader : Int
  tamanhoTotalPacote : Int
  portaOrigem : Int
  portaDestino : Int
  tcpSeq : Int
  tcpAckSeq : Int
  tcpAck : Bool
  tcpFin : Bool
  tcpSyn : Bool
  tcpRst : Bool
  tcpPsh : Bool
  tcpUrg : Bool
  tcpCwr : Bool
  tcpEce : Bool
  isVlan : Bool
  protocoloTransporte : CString
  protocoloAplicacao : Option CString

def Json.asStr : Json → Option CString
  | .str s => some s
  | _ => none

def Json.asNum : Json → Option Int
  | .num n => some n
  | _ => none

def Json.asBool : Json → Option Bool
  | .bool b => some b
  | _ => none

def Json.asArr : Json → Option (List Json)
  | .arr items => some items
  | _ => none

def readPacket (j : Json) : Option PacketView := do
  let text (key : String) := (j.lookup key.toList).bind Json.asStr
  let number (key : String) := (j.lookup key.toList).bind Json.asNum
  let flag (key : String) := (j.lookup key.toList).bind Json.asBool
  pure {
    timestamp := ← text "timestamp"
    macAdressOrigem := ← text "macAdressOrigem"
    macAdressDestino := ← text "macAdressDestino"
    protocoloIp := ← text "protocoloIp"
    ipOrigem := ← text "ipOrigem"
    ipDestino := ← text "ipDestino"
    tempoDeVida := ← number "tempoDeVida"
    tamanhoTotalHeader := ← number "tamanhoTotalHeader"
    tamanhoTotalPacote := ← number "tamanhoTotalPacote"
    portaOrigem := ← number "portaOrigem"
    portaDestino := ← number "portaDestino"
    tcpSeq := ← number "tcpSeq"
    tcpAckSeq := ← number "tcpAckSeq"
    tcpAck := ← flag "tcpAck"
    tcpFin := ← flag "tcpFin"
    tcpSyn := ← flag "tcpSyn"
    tcpRst := ← flag "tcpRst"
    tcpPsh := ← flag "tcpPsh"
    tcpUrg := ← flag "tcpUrg"
    tcpCwr := ← flag "tcpCwr"
    tcpEce := ← flag "tcpEce"
    isVlan := ← flag "isVlan"
    protocoloTransporte := ← text "protocolo_transporte"
    protocoloAplicacao := text "protocolo_aplicacao" }

/-- What a record says, and what the tables say about its ports. -/
def FullInternetPacket.view (services : Services) (pkt : FullInternetPacket) : PacketView where
  timestamp := pkt.timestamp
  macAdressOrigem := pkt.macOrigem
  macAdressDestino := pkt.macDestino
  protocoloIp := pkt.protocoloIp
  ipOrigem := pkt.ipOrigem
  ipDestino := pkt.ipDestino
  tempoDeVida := pkt.tempoVida
  tamanhoTotalHeader := pkt.totalHeaderLenght
  tamanhoTotalPacote := pkt.tamanhoTotalPacket
  portaOrigem := pkt.portaOrigem
  portaDestino := pkt.portaDestino
  tcpSeq := pkt.tcpSeq
  tcpAckSeq := pkt.tcpAckSeq
  tcpAck := pkt.tcpAck ≠ 0
  tcpFin := pkt.tcpFin ≠ 0
  tcpSyn := pkt.tcpSyn ≠ 0
  tcpRst := pkt.tcpRst ≠ 0
  tcpPsh := pkt.tcpPsh ≠ 0
  tcpUrg := pkt.tcpUrg ≠ 0
  tcpCwr := pkt.tcpCwr ≠ 0
  tcpEce := pkt.tcpEce ≠ 0
  isVlan := pkt.isVlan ≠ 0
  protocoloTransporte := (transportName pkt.protocoloTransporte).toList
  protocoloAplicacao := application services pkt

theorem lookup_members (fs : List Field) (key : String) :
    (Json.obj (fs.map Field.member)).lookup key.toList =
      (fs.map fun f => (f.key, f.value)).lookup key := by
  simp only [Json.lookup]
  induction fs with
  | nil => rfl
  | cons f fs ih =>
    have hkey : (key.toList == f.key.toList) = (key == f.key) := by
      rw [Bool.eq_iff_iff, beq_iff_eq, beq_iff_eq, String.toList_inj]
    simp [Field.member, List.lookup_cons, ih, hkey]

theorem readPacket_object (services : Services) (pkt : FullInternetPacket) :
    readPacket (packetObject services pkt) = some (pkt.view services) := by
  simp only [readPacket, packetObject, lookup_members, packetFieldList, transportFields]
  cases h : application services pkt with
  | some app =>
    simp [baseFields, textField, numberField, flagField, List.lookup_cons, Json.asStr, Json.asNum,
      Json.asBool, FullInternetPacket.view, h]
  | none =>
    simp [baseFields, textField, numberField, flagField, List.lookup_cons, Json.asStr, Json.asNum,
      Json.asBool, FullInternetPacket.view, h]

/-- The payload of a queue of parsed packets is a JSON document, and its
`packets` are the records of the queue, in order.

Premises: the tables' names need no escapes; the queue is not empty, its
records come from the parser thread, and it respects its bound. -/
theorem payload_decodes (services : Services) (hserv : services.Unescaped)
    (pkts : List FullInternetPacket) (hne : pkts ≠ []) (hpkts : ∀ pkt ∈ pkts, Produced pkt)
    (hlen : pkts.length ≤ 1000) :
    ∃ text doc items, generateJsonPayload services pkts = some text ∧
      Json.Document doc text ∧ Json.decode text = some doc ∧
      (doc.lookup "packets".toList).bind Json.asArr = some items ∧
      items.mapM readPacket = some (pkts.map (FullInternetPacket.view services)) := by
  have hdoc := payload_document hserv hne fun pkt h => (hpkts pkt h).wellFormed
  refine ⟨_, _, pkts.map (packetObject services),
    generateJsonPayload_eq services (fun pkt h => (hpkts pkt h).sized) hlen, hdoc,
    Json.decode_of_document hdoc, rfl, ?_⟩
  exact Text.mapM_map fun pkt _ => readPacket_object services pkt

theorem httpTable_unescaped :
    Services.Unescaped { tcp := httpTable, udp := httpTable } := by
  have h : ∀ port, ∀ name ∈ httpTable.entry port, ∀ c ∈ name, Json.Unescaped c := by
    intro port name hname
    simp only [httpTable] at hname
    split at hname
    · obtain rfl := Option.mem_some_iff.mp hname
      rw [lit_eq]
      decide
    · simp at hname
  exact fun port => ⟨h port, h port⟩

/-- A TCP segment and a UDP datagram. -/
theorem payload_decodes_records :
    let services : Services := { tcp := httpTable, udp := httpTable }
    let pkts := [synRecord, datagramRecord]
    ∃ text doc items, generateJsonPayload services pkts = some text ∧
      Json.Document doc text ∧ Json.decode text = some doc ∧
      (doc.lookup "packets".toList).bind Json.asArr = some items ∧
      items.mapM readPacket = some (pkts.map (FullInternetPacket.view services)) :=
  payload_decodes _ httpTable_unescaped _ (by decide) produced_records (by decide)

end WireSentinel
