/-! The protocols that an IPv4 datagram may carry. -/
namespace Igmp

inductive Protocol where
  | icmp
  | igmp
  | tcp
  | udp
  | other (id : UInt8)
  deriving DecidableEq, Repr

namespace Protocol

def id : Protocol → UInt8
  | icmp => 1
  | igmp => 2
  | tcp => 6
  | udp => 17
  | other id => id

def ofId (id : UInt8) : Protocol :=
  if id = 1 then icmp
  else if id = 2 then igmp
  else if id = 6 then tcp
  else if id = 17 then udp
  else other id

def text : Protocol → String
  | icmp => "Icmp"
  | igmp => "Igmp"
  | tcp => "Tcp"
  | udp => "Udp"
  | other id => "Other(" ++ toString id.toNat ++ ")"

theorem id_ofId (n : UInt8) : (ofId n).id = n := by
  simp only [ofId]
  split <;> try split <;> try split <;> try split
  all_goals simp_all [id]

theorem ofId_eq_igmp_iff (n : UInt8) : ofId n = igmp ↔ n = 2 := by
  constructor
  · intro h
    simpa [h, id, eq_comm] using id_ofId n
  · rintro rfl; rfl

end Protocol
end Igmp
