/-
  OtpToken.Proofs.Client.History
  ──────────────────────────────
  **A HOST, ITS TOKEN, AND EVERYTHING THAT WAS DONE.**

  A world is a host connected to a token.  Calls are made in any order, and
  the token is taken off its line and put back at any time.  The past of a
  world is the list of the calls that were done, **the last one first**;
  nothing of the state of host or token is in it.

  Four questions about code slots can be answered from the past alone: what
  was written last (`lastWrite?`), which secret was typed last since the slot
  was empty (`lastSecret?`), how many codes were given out since the last
  write (`uses`), and what time it is (`clockOf`).
-/
import OtpToken.Client.Call
import OtpToken.Token.Send

namespace OtpToken

/-! ## §1. What calls are about. -/

namespace Call

/-- What is written to a code slot: the data, and the counter or the
period. -/
def write? (kind : CodeKind) (index : UInt8) : Call → Option (SlotData × UInt64)
  | writeHotp i data counter _ =>
      if kind = .hotp ∧ i = index then some (data, counter) else none
  | writeTotp i data period _ =>
      if kind = .totp ∧ i = index then some (data, period.toUInt64) else none
  | _ => none

/-- The secret that is typed for a code slot; an empty text is none. -/
def secret? (kind : CodeKind) (index : UInt8) (call : Call) : Option String :=
  match call.write? kind index with
  | some (data, _) => if data.secret = "" then none else some data.secret
  | none => none

section Secret

variable {kind : CodeKind} {index : UInt8} {call : Call} {data : SlotData} {moving : UInt64}

theorem secret?_of_not_write (h : call.write? kind index = none) :
    call.secret? kind index = none := by
  unfold secret?
  rw [h]

theorem secret?_of_typed (h : call.write? kind index = some (data, moving))
    (htext : data.secret ≠ "") : call.secret? kind index = some data.secret := by
  unfold secret?
  rw [h]
  exact if_neg htext

theorem secret?_of_untyped (h : call.write? kind index = some (data, moving))
    (htext : data.secret = "") : call.secret? kind index = none := by
  unfold secret?
  rw [h]
  exact if_pos htext

end Secret

/-- Whether a code slot is empty once the call is done. -/
def empties (kind : CodeKind) (index : UInt8) : Call → Bool
  | eraseSlot k i _ => k = kind ∧ i = index
  | factoryReset _ => true
  | _ => false

/-- Whether the counter of a code slot moves on once the call is done. -/
def counts (kind : CodeKind) (index : UInt8) : Call → Bool
  | hotpCode i _ => kind = .hotp ∧ i = index
  | _ => false

/-- The time that the clock is set to. -/
def time? : Call → Option UInt64
  | setTime _ time => some time
  | _ => none

end Call

/-! ## §2. What the past tells. -/

section Past

variable (kind : CodeKind) (index : UInt8)

/-- What was written to a slot last. -/
def lastWrite? (past : List Call) : Option (SlotData × UInt64) :=
  past.findSome? (Call.write? kind index)

/-- The secret that was typed last for a slot since it was empty. -/
def lastSecret? (past : List Call) : Option String :=
  (past.takeWhile fun call => !call.empties kind index).findSome? (Call.secret? kind index)

/-- How many times the counter of a slot moved on since the last write. -/
def uses (past : List Call) : Nat :=
  (past.takeWhile fun call => (call.write? kind index).isNone).countP (Call.counts kind index)

/-- The time that the clock was set to last, and zero before. -/
def clockOf (past : List Call) : UInt64 := (past.findSome? Call.time?).getD 0

variable {kind index} {call : Call} {past : List Call}

theorem lastWrite?_cons :
    lastWrite? kind index (call :: past)
      = (call.write? kind index <|> lastWrite? kind index past) := by
  unfold lastWrite?
  rw [List.findSome?_cons]
  cases call.write? kind index with
  | none => rfl
  | some w => rfl

theorem lastSecret?_cons (h : call.empties kind index = false) :
    lastSecret? kind index (call :: past)
      = (call.secret? kind index <|> lastSecret? kind index past) := by
  unfold lastSecret?
  rw [List.takeWhile_cons_of_pos (by rw [h]; rfl), List.findSome?_cons]
  cases call.secret? kind index with
  | none => rfl
  | some text => rfl

theorem uses_of_write {w : SlotData × UInt64} (h : call.write? kind index = some w) :
    uses kind index (call :: past) = 0 := by
  unfold uses
  rw [List.takeWhile_cons_of_neg (by rw [h]; exact Bool.noConfusion)]
  rfl

theorem uses_of_not_write (h : call.write? kind index = none) :
    uses kind index (call :: past)
      = uses kind index past + (if call.counts kind index then 1 else 0) := by
  unfold uses
  rw [List.takeWhile_cons_of_pos (by rw [h]; rfl), List.countP_cons]

-- two codes since the write, a code of another slot, and a code before it
example (data : SlotData) (temp : Secret) :
    uses .hotp 0 [.hotpCode 0 temp, .hotpCode 1 temp, .hotpCode 0 temp,
      .writeHotp 0 data 5 temp, .hotpCode 0 temp] = 2 := rfl

/-- The period of a TOTP slot does not move. -/
theorem uses_totp (past : List Call) : uses .totp index past = 0 := by
  refine List.countP_eq_zero.mpr fun call _ => ?_
  unfold Call.counts
  split
  · simp
  · exact Bool.noConfusion

theorem clockOf_of_time {time : UInt64} (h : call.time? = some time) :
    clockOf (call :: past) = time := by
  unfold clockOf
  rw [List.findSome?_cons, h]
  rfl

theorem clockOf_of_not_time (h : call.time? = none) : clockOf (call :: past) = clockOf past := by
  unfold clockOf
  rw [List.findSome?_cons, h]

/-- What is written to a TOTP slot is a period. -/
theorem period_of_lastWrite? {data : SlotData} {moving : UInt64}
    (h : lastWrite? .totp index past = some (data, moving)) :
    ∃ period : UInt16, moving = period.toUInt64 := by
  obtain ⟨call, -, hwrite⟩ := List.exists_of_findSome?_eq_some h
  unfold Call.write? at hwrite
  split at hwrite
  · simp at hwrite
  · split at hwrite
    · cases hwrite
      exact ⟨_, rfl⟩
    · cases hwrite
  · cases hwrite

end Past

/-! ## §3. Worlds. -/

/-- What can happen to a host and its token. -/
inductive Event where
  | call (call : Call)
  | unplug
  | plugIn

/-- A host, its token, and the calls that were done, the last one first. -/
structure World where
  client : Client
  token : Token
  past : List Call

namespace World

/-- A host connected to a token that leaves the factory.  It goes by what the
firmware of the token is capable of. -/
def connect (config : TokenConfig) (verifyCrc : Bool) : Except Error World :=
  match Client.connect Token.line ⟨verifyCrc, none⟩ (Token.fresh config) with
  | (.error why, _) => .error why
  | (.ok client, token) => .ok ⟨client, token, []⟩

/-- The world after one more event. -/
def step (w : World) : Event → World
  | .call call =>
      match call.perform Token.line w.client w.token with
      | (.ok _, client, token) => ⟨client, token, call :: w.past⟩
      | (.error _, client, token) => { w with client, token }
  | .unplug => { w with token := w.token.unplug }
  | .plugIn => { w with token := w.token.plugIn }

/-- The world after more events, the first one first. -/
def run (w : World) (events : List Event) : World := events.foldl step w

/-- **What every event preserves holds after every run.** -/
theorem run_induction {I : World → Prop} {w : World} (h : I w)
    (hstep : ∀ w event, I w → I (w.step event)) (events : List Event) : I (w.run events) := by
  induction events generalizing w with
  | nil => exact h
  | cons event events ih => exact ih (hstep w event h)

end World

end OtpToken
