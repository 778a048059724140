/-
  OtpToken.Proofs.Client.Expected
  ───────────────────────────────
  **A HOST NEVER MEETS WHAT SHOULD NOT HAPPEN.**

  A call that fails has one of three causes (`Error.Expected`):

      refused on the host   before anything was sent
      unplugged             nothing came through
      refused by the token  with a status that says what is wrong with the call

  Every command of a call is one that a token can carry out
  (`Call.asks_plain`), such commands leave a token that can carry out the next
  one (`Token.Regular.askAll`), and what it answers can be read
  (`Call.reads_any`, and `Operation.exists_details` for the details of a slot).
  So every call of every run ends in one of these ways or is done
  (`World.no_internal_errors`).
-/
import OtpToken.Proofs.Client.Connect
import OtpToken.Proofs.Client.Refusal
import OtpToken.Proofs.Client.Single
import OtpToken.Proofs.Client.Transact
import OtpToken.Proofs.Token.Tellable

namespace OtpToken

variable {α : Type}

/-! ## §1. What calls ask. -/

namespace Operation

variable {c : Client} {conclude : Client → Payload → Except DecodeError α × Client}

/-- All commands of the operation are as a host makes them. -/
abbrev AsksPlain (op : Operation α) (c : Client) : Prop :=
  op.Asks c fun cs last => ∀ x ∈ last :: cs, x.Plain

theorem asksPlain_single {command : Client → Except Error Command}
    (h : ∀ x, command c = .ok x → x.Plain) : (single command conclude).AsksPlain c :=
  asks_single fun last hlast => List.forall_mem_singleton.mpr (h last hlast)

/-- One command that needs nothing checked. -/
theorem asksPlain_always {x : Command} (h : x.Plain) :
    (single (fun _ => .ok x) conclude).AsksPlain c := by
  refine asksPlain_single fun y hy => ?_
  cases hy
  exact h

/-- One command about a code slot. -/
theorem asksPlain_codeSlot {kind : CodeKind} {index : UInt8} {make : UInt8 → Command}
    (h : ∀ number, CodeKind.ofSlotNumber? number = some (kind, index) → (make number).Plain) :
    (single (fun _ => do return make (← codeSlot kind index)) conclude).AsksPlain c := by
  refine asksPlain_single fun x hx => ?_
  obtain ⟨number, hnumber, hx⟩ := exists_of_bind_ok hx
  cases hx
  exact h number (CodeKind.ofSlotNumber?_of_slotNumber? (slotNumber?_of_codeSlot hnumber))

/-- One command about a Password Safe slot. -/
theorem asksPlain_safeSlot {index : UInt8} {make : UInt8 → Command}
    (h : SlotFamily.safe.holds index = true → (make index).Plain) :
    (single (fun c => do return make (← safeSlot index c)) conclude).AsksPlain c := by
  refine asksPlain_single fun x hx => ?_
  obtain ⟨number, hnumber, hx⟩ := exists_of_bind_ok hx
  cases hx
  obtain ⟨rfl, hholds⟩ := of_safeSlot hnumber
  exact h hholds

theorem asksPlain_safeStatus : safeStatus.AsksPlain c := by
  refine asksPlain_single fun x hx => ?_
  split at hx
  · cases hx
    trivial
  · cases hx

/-- The name of a slot goes out as a text. -/
theorem plain_of_mem_staging {temp secret : Secret} {name : String} {x : Command}
    (h : x ∈ stagingCommands temp name secret) : x.Plain := by
  rcases of_mem_stagingCommands h with rfl | ⟨chunk, data, rfl⟩
  · exact ⟨name, rfl⟩
  · trivial

theorem asksPlain_writeSlot {kind : CodeKind} {index : UInt8} {data : SlotData} {counter : UInt64}
    {temp : Secret} (hperiod : kind = .totp → counter.toNat < UInt16.size) :
    (writeSlot kind index data counter temp).AsksPlain c := by
  intro script hprepare
  obtain ⟨cs, last, hscript, number, secret, hnumber, -, rfl, rfl⟩ := asks_writeSlot script hprepare
  refine ⟨_, _, hscript, List.forall_mem_cons.mpr ⟨?_, fun x => plain_of_mem_staging⟩⟩
  exact ⟨kind, index, CodeKind.ofSlotNumber?_of_slotNumber? hnumber, hperiod⟩

theorem asksPlain_writeSafe {index : UInt8} {name login password : String} :
    (writeSafe index name login password).AsksPlain c := by
  intro script hprepare
  obtain ⟨cs, last, hscript, rfl, rfl⟩ := asks_writeSafe script hprepare
  obtain ⟨slot, hslot, -⟩ := exists_of_bind_ok hprepare
  obtain ⟨-, hholds⟩ := of_safeSlot hslot
  exact ⟨_, _, hscript, List.forall_mem_cons.mpr ⟨hholds, List.forall_mem_singleton.mpr hholds⟩⟩

end Operation

namespace Call

open Operation

/-- **Every call asks commands about slots that exist, with texts as texts and
periods of sixteen bits.** -/
theorem asks_plain (call : Call) (c : Client) : call.operation.AsksPlain c := by
  cases call with
  | writeHotp index data counter temp => exact asksPlain_writeSlot nofun
  | writeTotp index data period temp =>
    refine asksPlain_writeSlot fun _ => ?_
    rw [UInt16.toNat_toUInt64]
    exact period.toNat_lt
  | writeSafe index name login password => exact asksPlain_writeSafe
  | safeStatus => exact asksPlain_safeStatus
  -- one command about a code slot
  | hotpCode index temp => exact asksPlain_codeSlot fun _ h => ⟨_, _, h⟩
  | totpCode index challenge lastTime lastInterval temp =>
    exact asksPlain_codeSlot fun _ h => ⟨_, _, h⟩
  | readSlot kind index => exact asksPlain_codeSlot fun _ h => ⟨_, _, h⟩
  | slotName kind index => exact asksPlain_codeSlot fun _ h => ⟨_, _, h⟩
  | eraseSlot kind index temp => exact asksPlain_codeSlot fun _ h => ⟨_, _, h⟩
  -- one command about a Password Safe slot
  | safeName index => exact asksPlain_safeSlot id
  | safeLogin index => exact asksPlain_safeSlot id
  | safePassword index => exact asksPlain_safeSlot id
  | eraseSafe index => exact asksPlain_safeSlot id
  | _ => exact asksPlain_always trivial

end Call

/-! ## §2. What is asked of a token. -/

/-- A token as a host finds it. -/
structure Token.Regular (t : Token) : Prop where
  sound : t.Sound
  tellable : t.Tellable

/-- The plug does not matter. -/
theorem Token.Regular.plugged {t : Token} (h : t.Regular) (pluggedIn : Bool) :
    Regular { t with pluggedIn } where
  sound := ⟨h.sound.attempts, h.sound.slots, h.sound.staged, h.sound.key⟩
  tellable := ⟨h.tellable.slots, h.tellable.entries, h.tellable.staged⟩

namespace Token

variable {t t' : Token} {answer : Except Error Payload} {x last : Command} {cs : List Command}

/-- What a host makes of an answer: a payload, or a status of the token for
something that can happen. -/
def Answered (answer : Except Error Payload) : Prop :=
  ∀ why, answer = .error why → ∃ status, why = .device status ∧ status ∉ Status.internal

theorem Regular.ask (h : t.Regular) (hplain : x.Plain) (hfits : x.Fits t.encoding)
    (hask : t.ask x = (answer, t')) : t'.Regular ∧ Answered answer := by
  have hnorm : x.norm.Fits t.encoding := hfits.norm
  have hcounter : ∀ counter ∈ x.norm.counter?, counter ≤ t.encoding.maximum := fun counter hmem =>
    CounterEncoding.le_maximum_iff.mpr fun hascii => hnorm.2 hascii counter hmem
  have hexpected := expected_execute h.sound h.tellable hplain.norm
  cases hask
  refine ⟨⟨h.sound.execute hcounter, h.tellable.execute hplain.norm hnorm⟩, fun why hwhy => ?_⟩
  cases hr : (t.execute x.norm).1 with
  | ok payload =>
    rw [hr] at hwhy
    cases hwhy
  | error status =>
    rw [hr] at hwhy hexpected
    cases hwhy
    exact ⟨status, rfl, hexpected⟩

/-- **Commands that a token can carry out leave a token that can carry out the
next one.** -/
theorem Regular.askAll (h : t.Regular) (hplain : ∀ x ∈ last :: cs, x.Plain)
    (hfits : ∀ x ∈ last :: cs, x.Fits t.encoding) (hall : t.askAll last cs = (answer, t')) :
    t'.Regular ∧ Answered answer := by
  -- along the commands, with the token after those already asked
  induction cs generalizing t with
  | nil => exact h.ask (hplain last List.mem_cons_self) (hfits last List.mem_cons_self) hall
  | cons x cs ih =>
    have hmem : x ∈ last :: x :: cs := List.mem_cons_of_mem last List.mem_cons_self
    have hrest : ∀ y ∈ last :: cs, y ∈ last :: x :: cs := by
      intro y hy
      rcases List.mem_cons.mp hy with rfl | hy
      · exact List.mem_cons_self
      · exact List.mem_cons_of_mem last (List.mem_cons_of_mem x hy)
    unfold Token.askAll at hall
    cases hask : t.ask x with
    | mk told t₁ =>
      obtain ⟨hregular, htold⟩ := h.ask (hplain x hmem) (hfits x hmem) hask
      have hencoding : t₁.encoding = t.encoding := by
        have hconfig := t.ask_config x
        rw [hask] at hconfig
        exact encoding_eq hconfig
      rw [hask] at hall
      cases told with
      | error why =>
        cases hall
        exact ⟨hregular, htold⟩
      | ok payload =>
        refine ih hregular (fun y hy => hplain y (hrest y hy)) (fun y hy => ?_) hall
        rw [hencoding]
        exact hfits y (hrest y hy)

end Token

/-! ## §3. The details of a slot. -/

/-- The details of a slot cannot be read from just any payload, but from what a
token tells. -/
theorem Operation.exists_details (kind : CodeKind) (index : UInt8) {number : UInt8} {c : Client}
    {t t' : Token} {payload : Payload} (he : c.capabilities.encoding = t.encoding)
    (hask : t.ask (.readSlot number) = (.ok payload, t')) :
    ∃ details after, (readSlot kind index).conclude c payload = (.ok details, after) := by
  have hdone : t.tellSlot number (fun slot => slot.details.encode t.encoding) = (.ok payload, t') :=
    Token.execute_of_ask_ok hask
  obtain ⟨-, -, -, slot, -, -, htold⟩ := Token.of_tellSlot_ok hdone
  have hdecode : (SlotDetails.decoder c.capabilities.encoding).decode payload.bytes
      = .ok slot.details.cut := by
    rw [he]
    exact SlotDetails.decode_encode htold
  exact ⟨_, _, conclude_consult hdecode⟩

/-! ## §4. How a call fails. -/

/-- **The failures of a call that a caller can expect** of a token. -/
inductive Error.Expected (t : Token) : Error → Prop
  /-- Refused on the host. -/
  | refused (why : LibraryError) : Expected t (.library why)
  /-- Nothing comes through to an unplugged token. -/
  | unplugged (hplug : t.pluggedIn = false) : Expected t (.line .disconnected)
  /-- Refused by the token. -/
  | told {status : Status} (hstatus : status ∉ Status.internal) : Expected t (.device status)

/-- An operation of plain commands whose answers can be read fails in one of these
ways, and leaves a regular token. -/
theorem Client.perform_expected {c c' : Client} {t t' : Token} {op : Operation α}
    {Q : List Command → Command → Prop} {result : Except Error α}
    (he : c.capabilities.encoding = t.encoding) (ht : t.Regular) (htidy : op.Tidy)
    (hhost : op.RefusesOnHost) (hop : op.Asks c Q)
    (hplain : ∀ cs last, Q cs last → ∀ x ∈ last :: cs, x.Plain)
    (hread : ∀ cs last payload t', Q cs last → t.askAll last cs = (.ok payload, t') →
      ∃ a after, op.conclude c payload = (.ok a, after))
    (h : c.perform Token.line op t = (result, c', t')) :
    t'.Regular ∧ ∀ why, result = .error why → why.Expected t := by
  cases hprepare : (op.prepare c).1 with
  | error why =>
    rw [perform_of_refused htidy hprepare] at h
    cases h
    obtain ⟨refusal, rfl⟩ := hhost c why hprepare
    refine ⟨ht, ?_⟩
    rintro _ ⟨⟩
    exact .refused refusal
  | ok script =>
    rw [perform_of_prepared htidy hprepare] at h
    by_cases hplug : t.pluggedIn = true
    · obtain ⟨cs, last, hasks, hQ⟩ := hop script hprepare
      rw [script.run_line hplug he hasks] at h
      cases hall : t.askAll last cs with
      | mk answer t₁ =>
        obtain ⟨hregular, hanswered⟩ := ht.askAll (hplain cs last hQ) (he ▸ hasks.fits) hall
        rw [hall] at h
        cases answer with
        | error why =>
          rw [finish_error] at h
          cases h
          obtain ⟨status, rfl, hstatus⟩ := hanswered why rfl
          refine ⟨hregular, ?_⟩
          rintro _ ⟨⟩
          exact .told hstatus
        | ok payload =>
          obtain ⟨a, after, hr⟩ := hread cs last payload t₁ hQ hall
          rw [finish_of_read hr] at h
          cases h
          exact ⟨hregular, nofun⟩
    · have hunplugged : t.pluggedIn = false := Bool.eq_false_iff.mpr hplug
      rw [script.run_unplugged hunplugged, finish_error] at h
      cases h
      refine ⟨ht, ?_⟩
      rintro _ ⟨⟩
      exact .unplugged hunplugged

/-- **Every call to a regular token leaves a regular token, and if it fails, then
as a caller can expect.** -/
theorem Call.perform_expected {call : Call} {c c' : Client} {t t' : Token}
    {result : Except Error Value} (hcap : c.capabilities = t.capabilities) (ht : t.Regular)
    (h : call.perform Token.line c t = (result, c', t')) :
    t'.Regular ∧ ∀ why, result = .error why → why.Expected t := by
  have he : c.capabilities.encoding = t.encoding := congrArg Capabilities.encoding hcap
  by_cases hdetails : ∃ kind index, call = .readSlot kind index
  · -- the details of a slot are read from what the token tells of it
    obtain ⟨kind, index, rfl⟩ := hdetails
    have hop : (readSlot kind index).operation.Asks c fun cs last =>
        cs = [] ∧ ∃ number, kind.slotNumber? index = some number ∧ last = .readSlot number :=
      Operation.asks_codeSlot
    refine Client.perform_expected he ht (tidy _) (refuses_on_host _) hop ?_ ?_ h
    · rintro cs last ⟨rfl, number, hnumber, rfl⟩
      exact List.forall_mem_singleton.mpr
        ⟨kind, index, CodeKind.ofSlotNumber?_of_slotNumber? hnumber⟩
    · rintro cs last payload t₁ ⟨rfl, number, -, rfl⟩ hall
      obtain ⟨details, after, hread⟩ := Operation.exists_details kind index he hall
      exact ⟨_, _, Operation.conclude_map Value.details hread⟩
  · exact Client.perform_expected he ht call.tidy call.refuses_on_host (call.asks_plain c)
      (fun _ _ hplain => hplain) (fun _ _ payload _ _ _ => reads_any hdetails c payload) h

/-! ## §5. Runs. -/

namespace World

/-- Calls and the plug keep the token regular. -/
theorem regular_step {config : TokenConfig} {w : World} (hfits : w.Fits config)
    (h : w.token.Regular) (event : Event) : (w.step event).token.Regular := by
  cases event with
  | unplug => exact h.plugged false
  | plugIn => exact h.plugged true
  | call call =>
    rcases w.step_call call with ⟨why, client, token, hperform, hstep⟩ |
      ⟨v, client, token, hperform, hstep⟩
    · rw [hstep]
      exact (Call.perform_expected hfits.capabilities h hperform).1
    · rw [hstep]
      exact (Call.perform_expected hfits.capabilities h hperform).1

/-- **No call of any run fails for something that should not happen.**  A host
connects to a fresh token with any settings; then come any calls with any
arguments, and the token is unplugged and plugged in at any time.  If a call
fails, then

* for a failure of the line only because the token is unplugged, and it is told as
  `disconnected`;
* for a status of the token never with a wrong checksum, a wrong slot, an
  unknown command, an unknown error or a busy token. -/
theorem no_internal_errors (config : TokenConfig) (verifyCrc : Bool) :
    ∃ start, connect config verifyCrc = .ok start
      ∧ ∀ (events : List Event) (call : Call),
          let now := start.run events
          ∀ why client token,
            call.perform Token.line now.client now.token = (.error why, client, token) →
            (∀ failure, why = .line failure →
                failure = .disconnected ∧ now.token.pluggedIn = false)
              ∧ ∀ status, why = .device status →
                  status ∉ [.wrongCrc, .wrongSlot, .unknownCommand, .unknown, .busy] := by
  obtain ⟨client, hconnect, hcap⟩ := connect_eq config verifyCrc
  refine ⟨_, hconnect, fun events call => ?_⟩
  have hstart : Fits config ⟨client, Token.fresh config, []⟩ := ⟨rfl, hcap⟩
  obtain ⟨hfits, hregular⟩ := fits_induction (I := fun w => w.token.Regular) hstart
    ⟨Token.sound_fresh config, Token.tellable_fresh config⟩
    (fun w event hfits h => regular_step hfits h event) events
  intro now why client' token hperform
  have hexpected : why.Expected now.token :=
    (Call.perform_expected hfits.capabilities hregular hperform).2 why rfl
  cases hexpected with
  | refused why => exact ⟨nofun, nofun⟩
  | unplugged hplug =>
    refine ⟨?_, nofun⟩
    rintro _ ⟨⟩
    exact ⟨rfl, hplug⟩
  | told hstatus =>
    refine ⟨nofun, ?_⟩
    rintro _ ⟨⟩
    exact hstatus

end World

end OtpToken
