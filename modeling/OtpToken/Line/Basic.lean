/-
  OtpToken.Line.Basic
  ───────────────────
  **WHAT CARRIES REPORTS.**

  A line takes one report and gives one report back, or fails.  Whatever is
  at its other end is its state: a token, a token behind a faulty cable, or
  an adversary.
-/
import OtpToken.Frame

namespace OtpToken

/-- One report in, one report out, over a state `σ`. -/
structure Line (σ : Type) where
  send : σ → Report → Except LineError Report × σ

namespace Line

variable {σ : Type}

/-- The line, with every report that was handed to it written down in
order. -/
def recorded (line : Line σ) : Line (σ × List Report) where
  send s r :=
    let (answer, inner) := line.send s.1 r
    (answer, inner, s.2 ++ [r])

end Line

end OtpToken
