/-! Where something is written: a range of byte offsets of the UTF-8 source. -/
namespace StagedMapping

structure Span where
  start : Nat
  stop : Nat
  deriving DecidableEq, Repr, Inhabited

namespace Span

/-- The smallest span around both. -/
def merge (a b : Span) : Span := ⟨min a.start b.start, max a.stop b.stop⟩

/-- The span inside a text of `length` bytes; what lies beyond its end moves to it. -/
def clamp (s : Span) (length : Nat) : Span :=
  let start := min s.start length
  ⟨start, min (max s.stop start) length⟩

/-- The place of what is not written anywhere. -/
def none : Span := ⟨0, 0⟩

theorem clamp_start_le_stop (s : Span) (n : Nat) : (s.clamp n).start ≤ (s.clamp n).stop := by
  simp only [clamp]
  omega

theorem clamp_stop_le (s : Span) (n : Nat) : (s.clamp n).stop ≤ n := by
  simp only [clamp]
  omega

theorem clamp_of_inside {s : Span} {n : Nat} (h : s.start ≤ s.stop) (hn : s.stop ≤ n) :
    s.clamp n = s := by
  cases s
  simp only [clamp, Span.mk.injEq] at *
  omega

end Span
end StagedMapping
