import Mathlib.Data.List.Basic

/-!
# Transfers in packets of a bounded size

A transfer is read packet by packet. The packets before its end are full, and there is
one behind the last full packet that is not; if the full packets already hold everything
it is empty. A reader that knows the packet size or how much it wants may stop there:
`read_complete` says when the packets it has seen are all there is.
-/

namespace ScicosFlex.Library.Packets

universe u
variable {α : Type u}

/-- Packet number `k` of a transfer. -/
def packet (size : Nat) (items : List α) (k : Nat) : List α := (items.drop (size * k)).take size

/-- The first packet. -/
@[simp] theorem packet_zero (size : Nat) (items : List α) : packet size items 0 = items.take size := by
  rw [packet, Nat.mul_zero, List.drop_zero]

/-- No packet is too long. -/
theorem packet_length (size : Nat) (items : List α) (k : Nat) :
    (packet size items k).length = min size (items.length - size * k) := by
  rw [packet, List.length_take, List.length_drop]

/-- Nothing is in the packets behind the end. -/
theorem packet_nil (size : Nat) (k : Nat) : packet size ([] : List α) k = [] := by
  rw [packet, List.drop_nil, List.take_nil]

/-- The first packets hold the first items. -/
theorem packets_flatten (size : Nat) (items : List α) (count : Nat) :
    ((List.range count).map (packet size items)).flatten = items.take (size * count) := by
  induction count with
  | zero => simp
  | succ count inductionHypothesis =>
    rw [List.range_succ, List.map_append, List.flatten_append, inductionHypothesis,
      List.map_singleton, List.flatten_singleton, packet, Nat.mul_succ, List.take_add]

/-- A reader that has met a short packet, or as many items as the transfer may
have at most, has read the whole transfer. -/
theorem read_complete (size : Nat) (items : List α) (count limit : Nat) (within : items.length ≤ limit)
    (stopped : (∃ k, k < count ∧ (packet size items k).length < size) ∨
      limit ≤ (((List.range count).map (packet size items)).flatten).length) :
    ((List.range count).map (packet size items)).flatten = items := by
  rw [packets_flatten] at stopped ⊢
  refine List.take_of_length_le ?_
  rcases stopped with ⟨k, inside, short⟩ | full
  · rw [packet_length] at short
    have reached : items.length ≤ size * k + size := by omega
    calc items.length ≤ size * (k + 1) := by rw [Nat.mul_succ]; exact reached
      _ ≤ size * count := Nat.mul_le_mul_left size inside
  · rw [List.length_take] at full
    omega

end ScicosFlex.Library.Packets
