import Igmp.Address
import Igmp.Checksum
import Igmp.CodecError
import Igmp.Protocol

/-! IPv4 datagrams, as far as is needed to find the message inside. -/
namespace Igmp

/-- A run of bytes that starts with an IPv4 header. -/
structure Datagram where
  bytes : Bytes
  deriving DecidableEq, Repr

namespace Datagram

/-- The size of a header without options. -/
def minimumHeader : Nat := 20

def view (bs : Bytes) : Except CodecError Datagram := do
  Container.require .datagram minimumHeader bs.length
  .ok ⟨bs⟩

def version (d : Datagram) : Nat := (d.bytes.byteAt 0).toNat / 16

/-- The declared header length in words of four bytes. -/
def headerLength (d : Datagram) : Nat := (d.bytes.byteAt 0).toNat % 16

def headerSize (d : Datagram) : Nat := 4 * d.headerLength

def totalLength (d : Datagram) : Nat := (d.bytes.wordAt 2).toNat

def timeToLive (d : Datagram) : Nat := (d.bytes.byteAt 8).toNat

def protocol (d : Datagram) : Protocol := .ofId (d.bytes.byteAt 9)

def checksum (d : Datagram) : UInt16 := d.bytes.wordAt 10

def source (d : Datagram) : Address := .ofBytes (d.bytes.slice 12 4)

def destination (d : Datagram) : Address := .ofBytes (d.bytes.slice 16 4)

def calculatedChecksum (d : Datagram) : UInt16 := Checksum.ofHeader (d.bytes.take d.headerSize)

def hasValidChecksum (d : Datagram) : Bool := d.checksum = d.calculatedChecksum

/-- All bytes after the header, padding included. A header declared too short counts as one without
options, and one that is declared too long leaves no payload. -/
def payload (d : Datagram) : Bytes := d.bytes.drop (max minimumHeader d.headerSize)

end Datagram

/-- Everything that can be read from a datagram, but for the sum its checksum is compared with. -/
structure DatagramReading where
  version : Nat
  headerLength : Nat
  totalLength : Nat
  timeToLive : Nat
  protocol : Protocol
  checksum : UInt16
  source : Address
  destination : Address
  payload : Bytes
  deriving DecidableEq, Repr

def Datagram.reading (d : Datagram) : DatagramReading where
  version := d.version
  headerLength := d.headerLength
  totalLength := d.totalLength
  timeToLive := d.timeToLive
  protocol := d.protocol
  checksum := d.checksum
  source := d.source
  destination := d.destination
  payload := d.payload

end Igmp
