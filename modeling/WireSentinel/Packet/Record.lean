import WireSentinel.Lib.Text

/-!
# The packet record

`FullInternetPacket` of `packet_list.h`, and the timestamp `get_time`
(`misc.c`) puts on it.
-/

namespace WireSentinel

/-- One captured packet's metadata. The defaults are what `memset` leaves. -/
structure FullInternetPacket where
  isVlan : UInt8 := 0
  tcpCwr : UInt8 := 0
  tcpEce : UInt8 := 0
  tcpAck : UInt8 := 0
  tcpFin : UInt8 := 0
  tcpSyn : UInt8 := 0
  tcpRst : UInt8 := 0
  tcpPsh : UInt8 := 0
  tcpUrg : UInt8 := 0
  macOrigem : CString := []
  macDestino : CString := []
  protocoloIp : CString := []
  ipOrigem : CString := []
  ipDestino : CString := []
  tempoVida : Nat := 0
  totalHeaderLenght : Nat := 0
  tamanhoTotalPacket : Int := 0
  portaOrigem : Nat := 0
  portaDestino : Nat := 0
  tcpSeq : Nat := 0
  tcpAckSeq : Nat := 0
  protocoloTransporte : Int := 0
  timestamp : CString := []
  deriving DecidableEq, Repr

/-- The broken-down local time `strftime` formats; `year` is
`tm_year + 1900` and `mon` is `tm_mon + 1`. -/
structure Tm where
  year : Nat
  mon : Nat
  mday : Nat
  hour : Nat
  min : Nat
  sec : Nat
  year_lt : year < 10 ^ 10
  mon_lt : mon < 100
  mday_lt : mday < 100
  hour_lt : hour < 100
  min_lt : min < 100
  sec_lt : sec < 100

def noon : Tm :=
  ⟨2026, 5, 8, 12, 0, 0, by decide, by decide, by decide, by decide, by decide, by decide⟩

/-- `%m`, `%d`, `%H`, `%M` and `%S`: a number below 100 in two digits. -/
def twoDigits (n : Nat) : CString := [Nat.digitChar (n / 10), Nat.digitChar (n % 10)]

/-- `get_time`: the format is `"%Y-%m-%dT%H:%M:%S"`. -/
def getTime (t : Tm) : CString :=
  Text.decimal t.year ++ '-' :: twoDigits t.mon ++ '-' :: twoDigits t.mday ++
    'T' :: twoDigits t.hour ++ ':' :: twoDigits t.min ++ ':' :: twoDigits t.sec

theorem getTime_length (t : Tm) : (getTime t).length ≤ 25 := by
  have h := Text.decimal_length_le (k := 10) (by decide) t.year_lt
  simp only [getTime, twoDigits, List.length_append, List.length_cons, List.length_nil]
  omega

namespace FullInternetPacket

def setVlan (p : FullInternetPacket) (isVlan : UInt8) : FullInternetPacket := { p with isVlan }

def setTransporte (p : FullInternetPacket) (protocolo : Int) : FullInternetPacket :=
  { p with protocoloTransporte := protocolo }

def setHeader (p : FullInternetPacket) (lenght : Nat) : FullInternetPacket :=
  { p with totalHeaderLenght := lenght }

def setTimestamp (p : FullInternetPacket) (time : CString) : FullInternetPacket :=
  { p with timestamp := time }

def untimed (p : FullInternetPacket) : FullInternetPacket := p.setTimestamp []

@[simp] theorem setHeader_totalHeaderLenght (p : FullInternetPacket) (n : Nat) :
    (p.setHeader n).totalHeaderLenght = n := rfl

@[simp] theorem untimed_setTimestamp (p : FullInternetPacket) (time : CString) :
    (p.setTimestamp time).untimed = p.untimed := rfl

end FullInternetPacket

end WireSentinel
