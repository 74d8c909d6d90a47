import MarketFeed.Packet.Header

/-!
Rerequests: twenty bytes laid out like a packet header, and nothing behind them.
-/
namespace MarketFeed

structure Rerequest where
  session : Session
  start : UInt64
  count : UInt16
  deriving DecidableEq, Repr

structure RerequestLength where
  length : Nat
  deriving DecidableEq, Repr

def RerequestLength.message (e : RerequestLength) : String :=
  s!"rerequest must be 20 bytes, got {e.length}"

namespace Rerequest

def write (r : Rerequest) : Bytes := r.session.bytes ++ be 8 r.start.toNat ++ be 2 r.count.toNat

def read (datagram : Bytes) : Except RerequestLength Rerequest :=
  if h : datagram.length = headerSize then
    .ok {
      session := ⟨datagram.take 10, by simp [headerSize] at h ⊢; omega⟩
      start := UInt64.ofNat (readBE ((datagram.drop 10).take 8))
      count := UInt16.ofNat (readBE ((datagram.drop 18).take 2)) }
  else .error ⟨datagram.length⟩

theorem readWritten (r : Rerequest) : read r.write = .ok r := by
  obtain ⟨⟨bytes, size⟩, start, count⟩ := r
  have head : (bytes ++ be 8 start.toNat ++ be 2 count.toNat).take 10 = bytes := by
    simp [size]
  have middle : ((bytes ++ be 8 start.toNat ++ be 2 count.toNat).drop 10).take 8 =
      be 8 start.toNat := by
    simp [size, beLength]
  have last : ((bytes ++ be 8 start.toNat ++ be 2 count.toNat).drop 18).take 2 =
      be 2 count.toNat := by
    rw [List.drop_left' (by simp [size, beLength]), List.take_of_length_le (by simp [beLength])]
  have whole : (bytes ++ be 8 start.toNat ++ be 2 count.toNat).length = headerSize := by
    simp [size, beLength, headerSize]
  simp only [read, write, whole, dif_pos, head, middle, last, readBeWritten]
  have a := start.toNat_lt
  have b := count.toNat_lt
  rw [Nat.mod_eq_of_lt (by simp [span]; omega), Nat.mod_eq_of_lt (by simp [span]; omega)]
  simp

end Rerequest
end MarketFeed
