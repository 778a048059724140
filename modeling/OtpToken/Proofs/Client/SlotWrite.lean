/-
  OtpToken.Proofs.Client.SlotWrite
  ────────────────────────────────
  **A CODE SLOT IS WRITTEN AS A WHOLE OR NOT AT ALL.**

  A write is a name, the pieces of a secret, and a last request that puts
  them into the slot.  Any of these can be lost on its way or on the way
  back.  Until the last request every slot stays as it was, and the last
  request finds the name and all pieces of this write staged, or it is not
  sent (`Token.askAllUnder_write`).

  What an earlier write has left behind is never looked at: the name comes
  first and starts over (`Token.askAllUnder_restaged`).
-/
import OtpToken.Proofs.Client.History
import OtpToken.Proofs.Client.Loss
import OtpToken.Proofs.Client.Slots

namespace OtpToken

variable {kind : CodeKind} {index : UInt8} {data : SlotData} {moving : UInt64} {temp : Secret}
  {c : Client} {t t₁ t' : Token} {cs : List Command} {last : Command}

/-! ## §1. A token that was written to. -/

/-- The addressed slot holds what was written; every other slot and the config
register are as they were. -/
structure Token.Wrote (t t' : Token) (kind : CodeKind) (index : UInt8) (data : SlotData)
    (moving : UInt64) : Prop where
  slot : ∃ slot, t'.store.codes.get? kind index = some (some slot)
    ∧ slot.Holds data moving t.capabilities.secretLength (t.store.codes.at? kind index)
  others : ∀ kind' index', (kind' = kind → index' ≠ index) →
    t'.store.codes.get? kind' index' = t.store.codes.get? kind' index'
  safe : t'.store.safe = t.store.safe
  config : t'.store.config = t.store.config

namespace Token

theorem wrote_of_ask {payload : Payload} (hcap : c.capabilities = t.capabilities)
    (hasks : Operation.AsksWrite c kind index data moving temp cs last)
    (htaken : t.taken? cs = some t₁) (hask : t₁.ask last = (.ok payload, t')) :
    t.Wrote t' kind index data moving := by
  obtain ⟨hholds, slot, hslot, rfl⟩ := of_write hcap hasks htaken hask
  refine ⟨⟨slot, CodeTable.get?_set_self hholds, hslot⟩, ?_, rfl, rfl⟩
  intro kind' index' hother
  exact CodeTable.get?_set_of_ne hother

/-- A piece of slot data leaves every slot alone. -/
theorem store_of_ask_staging {name : String} {secret : Secret} {x : Command}
    (h : x ∈ Operation.stagingCommands temp name secret) (t : Token) :
    (t.ask x).2.store = t.store := by
  rcases Operation.of_mem_stagingCommands h with rfl | ⟨chunk, data, rfl⟩
  · exact (effect_execute t _).store_of_sendOtpData
  · exact (effect_execute t _).store_of_sendOtpData

/-! ## §2. A write over a line with losses. -/

/-- The last request of a write is refused and leaves every slot as it was, or
it is done and the token was written to. -/
theorem ask_write (hcap : c.capabilities = t.capabilities)
    (hasks : Operation.AsksWrite c kind index data moving temp cs last)
    (htaken : t.taken? cs = some t₁) :
    (∃ why, (t₁.ask last).1 = .error why ∧ (t₁.ask last).2.store = t₁.store)
      ∨ (∃ payload, (t₁.ask last).1 = .ok payload)
        ∧ t.Wrote (t₁.ask last).2 kind index data moving := by
  cases hask : t₁.ask last with
  | mk answer t' =>
    cases answer with
    | error why =>
      obtain ⟨status, heffect⟩ := effect_of_ask_error hask
      exact .inl ⟨why, rfl, heffect.store_of_refused⟩
    | ok payload => exact .inr ⟨⟨payload, rfl⟩, wrote_of_ask hcap hasks htaken hask⟩

/-- **A write over a line with losses** fails and leaves every slot as it was,
or it has written; and then it fails only for the response to its last
request. -/
theorem askAllUnder_write (hcap : c.capabilities = t.capabilities)
    (hasks : Operation.AsksWrite c kind index data moving temp cs last)
    (losses : List (Option Loss)) :
    (∃ why, (t.askAllUnder last cs losses).1 = .error why
        ∧ (t.askAllUnder last cs losses).2.1.store = t.store)
      ∨ t.Wrote (t.askAllUnder last cs losses).2.1 kind index data moving
        ∧ ((∃ payload, (t.askAllUnder last cs losses).1 = .ok payload)
          ∨ ∃ why, (t.askAllUnder last cs losses).1 = .error (.line why)
              ∧ losses[cs.length]?.join = some (.response why)) := by
  have hstep : ∀ x ∈ cs, ∀ u : Token, u.store = t.store → (u.ask x).2.store = t.store := by
    obtain ⟨number, secret, -, -, rfl, -⟩ := hasks
    intro x hx u hu
    exact (store_of_ask_staging hx u).trans hu
  rcases askAllUnder_cases (P := fun u => u.store = t.store) rfl hstep last losses with
    ⟨why, t', rest, hstopped, hstore⟩ | ⟨t₁, rest, htaken, hstore, hended⟩
  · rw [hstopped]
    exact .inl ⟨why, rfl, hstore⟩
  · rw [hended]
    rcases t₁.askUnder_cases last losses[cs.length]?.join with
      ⟨why, hunder, -⟩ | ⟨-, -, hunder⟩ | ⟨why, hloss, hunder⟩
    · rw [hunder]
      exact .inl ⟨_, rfl, hstore⟩
    · rw [hunder]
      rcases ask_write hcap hasks htaken with ⟨why, hwhy, hsame⟩ | ⟨hdone, hwrote⟩
      · exact .inl ⟨why, hwhy, hsame.trans hstore⟩
      · exact .inr ⟨hwrote, .inl hdone⟩
    · -- heard of or not, the token did the same
      rw [hunder]
      rcases ask_write hcap hasks htaken with ⟨-, -, hsame⟩ | ⟨-, hwrote⟩
      · exact .inl ⟨_, rfl, hsame.trans hstore⟩
      · exact .inr ⟨hwrote, .inr ⟨why, rfl, hloss⟩⟩

/-! ## §3. What was staged before. -/

/-- A name is taken by both of two tokens that differ in what is staged, and
then they are the same, or it is refused by both. -/
theorem ask_name_restaged (t : Token) (staged : Staged) (temp data : Secret) (chunk : UInt8) :
    Token.ask { t with staged } (.sendOtpData temp .name chunk data)
        = t.ask (.sendOtpData temp .name chunk data)
      ∨ ∃ why, t.ask (.sendOtpData temp .name chunk data) = (.error why, t)
          ∧ Token.ask { t with staged } (.sendOtpData temp .name chunk data)
            = (.error why, { t with staged }) := by
  have hexecute : ∀ u : Token, u.ask (.sendOtpData temp .name chunk data)
      = ((u.withTemp .admin temp.untilNul (u.stage .name chunk data.untilNul.bytes)).1.mapError
            .device, (u.withTemp .admin temp.untilNul (u.stage .name chunk data.untilNul.bytes)).2) :=
    fun _ => rfl
  rw [hexecute, hexecute]
  unfold withTemp stage
  dsimp only
  split
  · split
    · exact .inr ⟨_, rfl, rfl⟩
    · exact .inl rfl
  · exact .inr ⟨_, rfl, rfl⟩

/-- The same over a line. -/
theorem askUnder_name_restaged (t : Token) (staged : Staged) (temp data : Secret) (chunk : UInt8)
    (loss : Option Loss) :
    Token.askUnder { t with staged } (.sendOtpData temp .name chunk data) loss
        = t.askUnder (.sendOtpData temp .name chunk data) loss
      ∨ ∃ why, t.askUnder (.sendOtpData temp .name chunk data) loss = (.error why, t)
          ∧ Token.askUnder { t with staged } (.sendOtpData temp .name chunk data) loss
            = (.error why, { t with staged }) := by
  unfold askUnder
  dsimp only
  -- only a token that is asked looks at anything
  split
  · exact .inr ⟨_, rfl, rfl⟩
  · exact .inr ⟨_, rfl, rfl⟩
  · rcases t.ask_name_restaged staged temp data chunk with h | ⟨why, h, h'⟩
    · rw [h]
      exact .inl rfl
    · rw [h, h']
      exact .inr ⟨_, rfl, rfl⟩
  · exact t.ask_name_restaged staged temp data chunk

/-- **What is staged before a name makes no difference** to what is answered,
or to anything but what is staged afterwards. -/
theorem askAllUnder_restaged (t : Token) (staged : Staged) (temp name : Secret) (chunk : UInt8)
    (last : Command) (cs : List Command) (losses : List (Option Loss)) :
    ∃ staged', Token.askAllUnder { t with staged } last
        (.sendOtpData temp .name chunk name :: cs) losses
      = ((t.askAllUnder last (.sendOtpData temp .name chunk name :: cs) losses).1,
          { (t.askAllUnder last (.sendOtpData temp .name chunk name :: cs) losses).2.1 with
            staged := staged' },
          (t.askAllUnder last (.sendOtpData temp .name chunk name :: cs) losses).2.2) := by
  unfold askAllUnder
  rcases t.askUnder_name_restaged staged temp name chunk losses.head?.join with
    h | ⟨why, h, h'⟩
  · rw [h]
    exact ⟨_, rfl⟩
  · rw [h, h']
    exact ⟨staged, rfl⟩

end Token

/-! ## §4. The call. -/

namespace Call

variable {call : Call} {c' : Client} {losses : List (Option Loss)} {result : Except Error Value}
  {rest : List (Option Fault)}

/-- A call that writes a slot asks the commands of a write. -/
theorem asks_of_write? (h : call.write? kind index = some (data, moving))
    (hasks : call.Asks c cs last) :
    ∃ temp, Operation.AsksWrite c kind index data moving temp cs last := by
  unfold write? at h
  split at h
  · split at h
    · next hslot =>
      obtain ⟨rfl, rfl⟩ := hslot
      cases h
      exact ⟨_, hasks⟩
    · cases h
  · split at h
    · next hslot =>
      obtain ⟨rfl, rfl⟩ := hslot
      cases h
      exact ⟨_, hasks⟩
    · cases h
  · cases h

/-- It is one operation for both kinds of slots. -/
theorem operation_of_write? (h : call.write? kind index = some (data, moving)) :
    ∃ temp, call.operation
      = (Operation.writeSlot kind index data moving temp).map operation.done := by
  unfold write? at h
  split at h
  · split at h
    · next hslot =>
      obtain ⟨rfl, rfl⟩ := hslot
      cases h
      exact ⟨_, rfl⟩
    · cases h
  · split at h
    · next hslot =>
      obtain ⟨rfl, rfl⟩ := hslot
      cases h
      exact ⟨_, rfl⟩
    · cases h
  · cases h

/-- Whatever it is answered, it has no value to read. -/
theorem finish_of_write? (h : call.write? kind index = some (data, moving)) (payload : Payload) :
    (c.finish call.operation (.ok payload)).1 = .ok .nothing := by
  obtain ⟨temp, hop⟩ := operation_of_write? h
  rw [hop]
  rfl

/-- The response to the last request of a call is lost, and that is the one
that writes the slot. -/
def LosesWrite (call : Call) (c : Client) (losses : List (Option Loss)) (data : SlotData)
    (moving : UInt64) (why : LineError) : Prop :=
  ∃ script temp number, (call.operation.prepare c).1 = .ok script
    ∧ c.request (.writeToSlot temp number moving data.flags data.tokenId) = .ok script.final
    ∧ losses[script.opening.length]?.join = some (.response why)

/-- **A code slot is written as a whole or not at all**, whatever is lost on
the way.  Either the call fails and every slot is as it was.  Or the slot holds
exactly what the caller gave and every other slot is as it was; then the call
is done, or it fails because the response to its last request was lost.  What
was staged before makes no difference to any of this. -/
theorem write_all_or_nothing (hwrite : call.write? kind index = some (data, moving))
    (hcap : c.capabilities = t.capabilities)
    (h : call.perform Token.line.faulty c (t, Loss.faults losses) = (result, c', t', rest)) :
    ((∃ why, result = .error why ∧ t'.store = t.store)
        ∨ t.Wrote t' kind index data moving
          ∧ (result = .ok .nothing
            ∨ ∃ why, result = .error (.line why) ∧ call.LosesWrite c losses data moving why))
      ∧ ∀ staged, ∃ staged',
          call.perform Token.line.faulty c ({ t with staged }, Loss.faults losses)
            = (result, c', { t' with staged := staged' }, rest) := by
  unfold perform at h ⊢
  cases hprepare : (call.operation.prepare c).1 with
  | error why =>
    -- refused on the host
    rw [Client.perform_of_refused call.tidy hprepare] at h
    cases h
    refine ⟨.inl ⟨why, rfl, rfl⟩, ?_⟩
    intro staged
    rw [Client.perform_of_refused call.tidy hprepare]
    exact ⟨staged, rfl⟩
  | ok script =>
    obtain ⟨cs, last, hscript, hasks⟩ := call.asks c script hprepare
    obtain ⟨temp, hasks⟩ := asks_of_write? hwrite hasks
    have hwrites : c.Writes t.encoding (last :: cs) := by
      intro x _
      rw [hcap]
      rfl
    rw [Client.perform_losing call.tidy hprepare hscript hwrites] at h
    constructor
    · cases h
      rcases Token.askAllUnder_write hcap hasks losses with
        ⟨why, hwhy, hstore⟩ | ⟨hwrote, ⟨payload, hdone⟩ | ⟨why, hwhy, hloss⟩⟩
      · rw [hwhy, Client.finish_error]
        exact .inl ⟨why, rfl, hstore⟩
      · rw [hdone]
        exact .inr ⟨hwrote, .inl (finish_of_write? hwrite payload)⟩
      · rw [hwhy, Client.finish_error]
        rw [← hscript.length_opening] at hloss
        obtain ⟨number, secret, -, -, -, rfl⟩ := hasks
        exact .inr ⟨hwrote, .inr ⟨why, rfl, script, temp, number, hprepare, hscript.2, hloss⟩⟩
    · intro staged
      rw [Client.perform_losing (t := { t with staged }) call.tidy hprepare hscript hwrites]
      obtain ⟨number, secret, -, -, rfl, -⟩ := hasks
      obtain ⟨staged', hstaged⟩ := t.askAllUnder_restaged staged temp (.ofText data.name) 0 last
        ((Operation.pieces chunkWidth secret.bytes).map fun piece =>
          .sendOtpData temp .secret piece.1 ⟨piece.2⟩) losses
      unfold Operation.stagingCommands at h ⊢
      rw [hstaged]
      cases h
      exact ⟨staged', rfl⟩

end Call

/-- A token on which a write was given up half way, with the admin logged
in. -/
def Token.abandoned : Token :=
  { Token.fresh .factory with
    staged := ⟨some "stale", some (List.replicate 40 0xFF)⟩
    session := ((Token.fresh .factory).session.login .admin (Utf8.encode "12345678")
      (.ofText "temp")).2 }

set_option maxRecDepth 20000 in
/-- The next write to it, whose last response is lost, has written. -/
theorem Call.write_all_or_nothing_abandoned :
    (writeHotp 0 ⟨"a", "00FF", {}, ""⟩ 5 (.ofText "temp")).write? .hotp 0
        = some (⟨"a", "00FF", {}, ""⟩, 5)
      ∧ ∃ result c' t' rest,
          (writeHotp 0 ⟨"a", "00FF", {}, ""⟩ 5 (.ofText "temp")).perform Token.line.faulty
              { Client.fresh default with capabilities := Token.abandoned.capabilities }
              (.abandoned, Loss.faults [none, none, some (.response .disconnected)])
            = (result, c', t', rest)
          ∧ Token.abandoned.Wrote t' .hotp 0 ⟨"a", "00FF", {}, ""⟩ 5 := by
  have hwrite : (writeHotp 0 ⟨"a", "00FF", {}, ""⟩ 5 (.ofText "temp")).write? .hotp 0
      = some (⟨"a", "00FF", {}, ""⟩, 5) := rfl
  have hwritten : (((writeHotp 0 ⟨"a", "00FF", {}, ""⟩ 5 (.ofText "temp")).perform
      Token.line.faulty { Client.fresh default with capabilities := Token.abandoned.capabilities }
      (.abandoned, Loss.faults [none, none, some (.response .disconnected)])).2.2.1.store.codes.at?
        .hotp 0).isSome = true := by decide +kernel
  cases h : (writeHotp 0 ⟨"a", "00FF", {}, ""⟩ 5 (.ofText "temp")).perform Token.line.faulty
      { Client.fresh default with capabilities := Token.abandoned.capabilities }
      (.abandoned, Loss.faults [none, none, some (.response .disconnected)]) with
  | mk result after =>
    obtain ⟨c', t', rest⟩ := after
    rw [h] at hwritten
    refine ⟨hwrite, result, c', t', rest, rfl, ?_⟩
    rcases (write_all_or_nothing hwrite rfl h).1 with ⟨why, -, hstore⟩ | ⟨hwrote, -⟩
    · rw [hstore] at hwritten
      cases hwritten
    · exact hwrote

end OtpToken
