/-!
Which iterations of a run carry gradients. A backward pass replays exactly the iterations that a
forward pass ran; gradients flow through the trailing ones only, and the earlier ones are
replayed as constants.
-/

namespace DualAscent

/-- A run split into iterations without and with gradients. -/
structure ReplayWindow where
  /-- Leading iterations, replayed as constants. -/
  skip : Nat
  /-- Trailing iterations, replayed with gradients. -/
  tracked : Nat
deriving DecidableEq

namespace ReplayWindow

/-- At most `most` trailing iterations of a run carry gradients. -/
def ofRun (run most : Nat) : ReplayWindow := ⟨run - min run most, min run most⟩

/-- Iterations replayed in total. -/
def total (window : ReplayWindow) : Nat := window.skip + window.tracked

/-- The whole run is replayed. -/
@[simp]
theorem total_ofRun (run most : Nat) : (ofRun run most).total = run := by
  simp only [total, ofRun]
  omega

/-- Gradients flow through every iteration. -/
def isFull (window : ReplayWindow) : Bool := window.skip = 0

/-- Written as the three counts of the replay. -/
def text (window : ReplayWindow) : String :=
  "num_iterations: " ++ toString window.total
    ++ ", track_grad_for_num_itr: " ++ toString window.tracked
    ++ ", track_grad_after_itr: " ++ toString window.skip

end ReplayWindow

end DualAscent
