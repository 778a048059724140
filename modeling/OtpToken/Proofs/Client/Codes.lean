/-
  OtpToken.Proofs.Client.Codes
  ────────────────────────────
  **EVERY CODE IS THE ONE THAT THE PAST ASKS FOR.**

  `World.Tied` says how a token hangs together with what was done to it: each
  programmed slot has the flags and the moving number of the last write, with
  one added for each code since, and the secret that was typed last, filled up
  with zeros.  Every event preserves it (`Tied.step`), so it holds after every
  run, and a code that is read is the code of exactly these
  (`codes_over_runs`).
-/
import OtpToken.Proofs.Client.Connect
import OtpToken.Proofs.Client.Single

namespace OtpToken

/-! ## §1. What a slot has from the past. -/

variable {kind : CodeKind} {index : UInt8} {call : Call} {past : List Call}
  {capacity : Nat}

/-- The secret that was typed last since the slot was empty, filled up with
zeros. -/
def Secret.FromPast (s : Secret) (capacity : Nat) (kind : CodeKind) (index : UInt8)
    (past : List Call) : Prop :=
  ∃ text bytes, lastSecret? kind index past = some text
    ∧ Hex.decode (Utf8.encode text) = .ok bytes ∧ bytes ≠ [] ∧ bytes.length ≤ capacity
    ∧ s.bytes = Bytes.padTo capacity bytes

/-- The flags of the last write, and its moving number with one added for each
code since. -/
def SlotDetails.FromPast (d : SlotDetails) (kind : CodeKind) (index : UInt8)
    (past : List Call) : Prop :=
  ∃ data moving, lastWrite? kind index past = some (data, moving)
    ∧ d.flags = data.flags ∧ d.counter.toNat = moving.toNat + uses kind index past

/-- Secret and details are those that the past gives. -/
def CodeSlot.FromPast (slot : CodeSlot) (capacity : Nat) (kind : CodeKind) (index : UInt8)
    (past : List Call) : Prop :=
  slot.secret.FromPast capacity kind index past ∧ slot.details.FromPast kind index past

/-- The call has nothing to do with a slot. -/
structure Call.Passes (call : Call) (kind : CodeKind) (index : UInt8) : Prop where
  write : call.write? kind index = none
  empties : call.empties kind index = false
  counts : call.counts kind index = false

/-- A secret stays unless another one is typed or the slot is emptied. -/
theorem Secret.FromPast.cons {s : Secret} (h : s.FromPast capacity kind index past)
    (hsecret : call.secret? kind index = none) (hempties : call.empties kind index = false) :
    s.FromPast capacity kind index (call :: past) := by
  obtain ⟨text, bytes, htext, hbytes⟩ := h
  refine ⟨text, bytes, ?_, hbytes⟩
  rw [lastSecret?_cons hempties, hsecret]
  exact htext

theorem SlotDetails.FromPast.cons {d : SlotDetails} (h : d.FromPast kind index past)
    (hpasses : call.Passes kind index) : d.FromPast kind index (call :: past) := by
  obtain ⟨data, moving, hlast, hflags, hcounter⟩ := h
  refine ⟨data, moving, ?_, hflags, ?_⟩
  · rw [lastWrite?_cons, hpasses.write]
    exact hlast
  · rw [uses_of_not_write hpasses.write, hpasses.counts]
    exact hcounter

/-- **A call that has nothing to do with a slot leaves it with the same
past.** -/
theorem CodeSlot.FromPast.cons {slot : CodeSlot} (h : slot.FromPast capacity kind index past)
    (hpasses : call.Passes kind index) : slot.FromPast capacity kind index (call :: past) :=
  ⟨h.1.cons (Call.secret?_of_not_write hpasses.write) hpasses.empties, h.2.cons hpasses⟩

/-- A secret that was typed now. -/
theorem Secret.fromPast_of_typed {s : Secret} {text : String} {bytes : Bytes}
    (hsecret : call.secret? kind index = some text) (hempties : call.empties kind index = false)
    (hdecode : Hex.decode (Utf8.encode text) = .ok bytes) (hne : bytes ≠ [])
    (hlen : bytes.length ≤ capacity) (hs : s.bytes = Bytes.padTo capacity bytes) :
    s.FromPast capacity kind index (call :: past) := by
  refine ⟨text, bytes, ?_, hdecode, hne, hlen, hs⟩
  rw [lastSecret?_cons hempties, hsecret]
  rfl

/-- Details that were written now. -/
theorem SlotDetails.fromPast_of_write {d : SlotDetails} {data : SlotData} {moving : UInt64}
    (hwrite : call.write? kind index = some (data, moving)) (hflags : d.flags = data.flags)
    (hcounter : d.counter = moving) : d.FromPast kind index (call :: past) := by
  refine ⟨data, moving, ?_, hflags, ?_⟩
  · rw [lastWrite?_cons, hwrite]
    rfl
  · rw [uses_of_write hwrite, hcounter]
    rfl

/-- Details whose counter moved on now. -/
theorem SlotDetails.FromPast.cons_of_counted {d : SlotDetails} (h : d.FromPast kind index past)
    (hwrite : call.write? kind index = none) (hcounts : call.counts kind index = true)
    {maximum : UInt64} (hmax : d.counter < maximum) :
    FromPast { d with counter := d.counter + 1 } kind index (call :: past) := by
  obtain ⟨data, moving, hlast, hflags, hcounter⟩ := h
  refine ⟨data, moving, ?_, hflags, ?_⟩
  · rw [lastWrite?_cons, hwrite]
    exact hlast
  · rw [uses_of_not_write hwrite, hcounts]
    have hroom : d.counter.toNat < maximum.toNat := UInt64.lt_iff_toNat_lt.mp hmax
    have hlimit : maximum.toNat < 2 ^ 64 := maximum.toNat_lt
    show (d.counter + 1).toNat = moving.toNat + (uses kind index past + 1)
    rw [UInt64.toNat_add]
    show (d.counter.toNat + 1) % 2 ^ 64 = _
    omega

/-! ## §2. Calls that have nothing to do with a slot. -/

namespace Call

theorem passes_of_spares (h : call.spares = true) (kind : CodeKind) (index : UInt8) :
    call.Passes kind index := by
  cases call with
  | writeHotp i data counter temp => cases h
  | writeTotp i data period temp => cases h
  | hotpCode i temp => cases h
  | eraseSlot k i temp => cases h
  | factoryReset pin => cases h
  | _ => exact ⟨rfl, rfl, rfl⟩

theorem time?_of_spares (h : call.spares = true) : call.time? = none := by
  cases call with
  | setTime reset time => cases h
  | _ => rfl

end Call

/-! ## §3. One event. -/

theorem CodeTable.get?_of_at? {α : Type} {table : CodeTable α} {a : α}
    (h : table.at? kind index = some a) : table.get? kind index = some (some a) :=
  Option.join_eq_some_iff.mp h

theorem CodeTable.get?_empty_ne {α : Type} {a : α} :
    (CodeTable.empty : CodeTable α).get? kind index ≠ some (some a) := by
  cases kind with
  | hotp => simp [CodeTable.get?, CodeTable.empty, Vector.getElem?_replicate]
  | totp => simp [CodeTable.get?, CodeTable.empty, Vector.getElem?_replicate]

/-- Clock and code slots are those that the past gives. -/
structure Token.FromPast (t : Token) (past : List Call) : Prop where
  clock : t.clock = clockOf past
  slots : ∀ kind index slot, t.store.codes.get? kind index = some (some slot) →
    slot.FromPast t.capabilities.secretLength kind index past

namespace Token.FromPast

variable {t t' : Token}

theorem of_same (h : t.FromPast past) (hconfig : t'.config = t.config) (hsame : t.SameCodes t') :
    t'.FromPast past := by
  have hcap : t'.capabilities = t.capabilities := capabilities_eq hconfig
  refine ⟨hsame.2.trans h.clock, ?_⟩
  rw [hsame.1, hcap]
  exact h.slots

/-- A call that has nothing to do with any slot or the clock. -/
theorem cons (h : t.FromPast past) (htime : call.time? = none)
    (hpasses : ∀ kind index, call.Passes kind index) : t.FromPast (call :: past) := by
  refine ⟨h.clock.trans (clockOf_of_not_time htime).symm, ?_⟩
  intro kind index slot hslot
  exact (h.slots kind index slot hslot).cons (hpasses kind index)

/-- **A call that changes one slot only**: it is enough that the slot has its
new contents from the past. -/
theorem cons_of_set {contents : Option CodeSlot} (h : t.FromPast past)
    (hconfig : t'.config = t.config) (hclock : t'.clock = t.clock) (htime : call.time? = none)
    (hcodes : t'.store.codes = t.store.codes.set kind index contents)
    (hothers : ∀ kind' index', (kind' = kind → index' ≠ index) → call.Passes kind' index')
    (hslot : ∀ slot, contents = some slot →
      slot.FromPast t.capabilities.secretLength kind index (call :: past)) :
    t'.FromPast (call :: past) := by
  have hcap : t'.capabilities = t.capabilities := capabilities_eq hconfig
  refine ⟨?_, ?_⟩
  · rw [hclock, clockOf_of_not_time htime]
    exact h.clock
  · rw [hcodes, hcap]
    intro kind' index' slot hget
    by_cases hplace : kind' = kind ∧ index' = index
    · -- here the contents are the new ones; there is a slot, so it was set
      obtain ⟨rfl, rfl⟩ := hplace
      have hholds : (SlotFamily.code kind').holds index' = true := by
        rw [← CodeTable.isSome_get?_iff, hget]
        rfl
      rw [CodeTable.get?_set_self hholds] at hget
      exact hslot slot (Option.some.inj hget)
    · -- elsewhere nothing happened, and the call is no news
      have hother : kind' = kind → index' ≠ index := fun hk hi => hplace ⟨hk, hi⟩
      rw [CodeTable.get?_set_of_ne hother] at hget
      exact (h.slots kind' index' slot hget).cons (hothers kind' index' hother)

end Token.FromPast

section Call

variable {c c' : Client} {t t' : Token} {v : Value} {temp : Secret}

/-- **A write ties the slot to the new past.** -/
theorem Token.FromPast.cons_of_write {data : SlotData} {moving : UInt64} {cs : List Command}
    {last : Command} {payload : Payload} (h : t.FromPast past)
    (hcap : c.capabilities = t.capabilities) (hconfig : t'.config = t.config)
    (hasks : Operation.AsksWrite c kind index data moving temp cs last)
    (hall : t.askAll last cs = (.ok payload, t')) (htime : call.time? = none)
    (hempties : call.empties kind index = false)
    (hwrite : call.write? kind index = some (data, moving))
    (hothers : ∀ kind' index', (kind' = kind → index' ≠ index) → call.Passes kind' index') :
    t'.FromPast (call :: past) := by
  obtain ⟨t₁, htaken, hask⟩ := Token.taken_of_askAll_ok hall
  obtain ⟨-, slot, hholds, rfl⟩ := Token.of_write hcap hasks htaken hask
  refine h.cons_of_set hconfig rfl htime rfl hothers ?_
  intro slot' hslot'
  cases hslot'
  have hflags : slot.details.flags = data.flags := congrArg SlotDetails.flags hholds.details
  have hmoving : slot.details.counter = moving := congrArg SlotDetails.counter hholds.details
  refine ⟨?_, SlotDetails.fromPast_of_write hwrite hflags hmoving⟩
  by_cases htext : data.secret = ""
  · -- nothing was typed, and the slot has kept what it had
    obtain ⟨previous, hprevious, hkept⟩ := Option.map_eq_some_iff.mp (hholds.kept htext)
    rw [← hkept]
    exact (h.slots kind index previous (CodeTable.get?_of_at? hprevious)).1.cons
      (Call.secret?_of_untyped hwrite htext) hempties
  · -- the secret that was typed is the last one now
    obtain ⟨bytes, hdecode, hne, hlen, hsecret⟩ := hholds.typed htext
    exact Secret.fromPast_of_typed (Call.secret?_of_typed hwrite htext) hempties hdecode hne
      hlen hsecret

/-- **Every call that is done keeps clock and code slots tied to the past.** -/
theorem Token.FromPast.cons_of_done (h : t.FromPast past) (hcap : c.capabilities = t.capabilities)
    (hdone : call.perform Token.line c t = (.ok v, c', t')) : t'.FromPast (call :: past) := by
  have hconfig : t'.config = t.config := (Call.settings_of_perform hcap hdone).1
  by_cases hspares : call.spares = true
  · have hsame := Call.same_of_spares hcap hspares hdone
    exact (h.of_same hconfig hsame).cons (Call.time?_of_spares hspares)
      (Call.passes_of_spares hspares)
  · cases call with
    | setTime reset time =>
      obtain ⟨hcodes, hclock⟩ := Call.of_setTime hdone
      refine ⟨hclock.trans (clockOf_of_time rfl).symm, ?_⟩
      rw [hcodes, Token.capabilities_eq hconfig]
      intro kind index slot hslot
      exact (h.slots kind index slot hslot).cons ⟨rfl, rfl, rfl⟩
    | factoryReset pin =>
      obtain ⟨hclock, hcodes⟩ := Call.of_factoryReset hdone
      refine ⟨hclock.trans h.clock, ?_⟩
      -- no slot is left to speak about, and the clock goes on
      rw [hcodes]
      intro kind index slot hslot
      exact absurd hslot CodeTable.get?_empty_ne
    | eraseSlot kind index temp =>
      obtain ⟨hclock, hcodes⟩ := Call.of_eraseSlot hdone
      refine h.cons_of_set hconfig hclock rfl hcodes ?_ (fun slot hslot => nomatch hslot)
      intro kind' index' hother
      exact ⟨rfl, decide_eq_false fun e => hother e.1.symm e.2.symm, rfl⟩
    | hotpCode index temp =>
      obtain ⟨hclock, slot, code, hslot, hmax, -, -, hcodes⟩ := Call.of_hotpCode hdone
      refine h.cons_of_set hconfig hclock rfl hcodes ?_ ?_
      · intro kind' index' hother
        exact ⟨rfl, rfl, decide_eq_false fun e => hother e.1 e.2.symm⟩
      · intro slot' hslot'
        cases hslot'
        -- the same secret, and one use more
        obtain ⟨hsecret, hdetails⟩ := h.slots .hotp index slot hslot
        have hcounts : (Call.hotpCode index temp).counts .hotp index = true :=
          decide_eq_true ⟨rfl, rfl⟩
        exact ⟨hsecret.cons rfl rfl, hdetails.cons_of_counted rfl hcounts hmax⟩
    | totpCode index challenge lastTime lastInterval temp =>
      obtain ⟨hsame, -⟩ := Call.of_totpCode hdone
      exact (h.of_same hconfig hsame).cons rfl fun kind index => ⟨rfl, rfl, rfl⟩
    | writeHotp index data counter temp =>
      obtain ⟨cs, last, payload, after, hasks, hall, -⟩ := Call.of_done hcap hdone
      refine h.cons_of_write hcap hconfig hasks hall rfl rfl (if_pos ⟨rfl, rfl⟩) ?_
      intro kind' index' hother
      exact ⟨if_neg fun e => hother e.1 e.2.symm, rfl, rfl⟩
    | writeTotp index data period temp =>
      obtain ⟨cs, last, payload, after, hasks, hall, -⟩ := Call.of_done hcap hdone
      refine h.cons_of_write hcap hconfig hasks hall rfl rfl (if_pos ⟨rfl, rfl⟩) ?_
      intro kind' index' hother
      exact ⟨if_neg fun e => hother e.1 e.2.symm, rfl, rfl⟩
    | _ => exact absurd rfl hspares

end Call

/-! ## §4. Every run. -/

namespace World

/-- The host goes by what the token is capable of, and the token is tied to
the past. -/
structure Tied (w : World) : Prop where
  capabilities : w.client.capabilities = w.token.capabilities
  token : w.token.FromPast w.past

/-- **Every event preserves the tie.** -/
theorem Tied.step {w : World} (h : w.Tied) (event : Event) : (w.step event).Tied := by
  cases event with
  | unplug => exact ⟨h.capabilities, h.token.of_same rfl (.refl _)⟩
  | plugIn => exact ⟨h.capabilities, h.token.of_same rfl (.refl _)⟩
  | call call =>
    unfold World.step
    dsimp only
    cases hperform : call.perform Token.line w.client w.token with
    | mk result after =>
      obtain ⟨client, token⟩ := after
      obtain ⟨hconfig, hcap⟩ := Call.settings_of_perform h.capabilities hperform
      have hcapabilities : client.capabilities = token.capabilities := by
        rw [hcap, Token.capabilities_eq hconfig]
        exact h.capabilities
      cases result with
      | error why =>
        -- nothing was done, and nothing that codes are made of has changed
        have hsame := Call.same_of_error h.capabilities hperform
        exact ⟨hcapabilities, h.token.of_same hconfig hsame⟩
      | ok v => exact ⟨hcapabilities, h.token.cons_of_done h.capabilities hperform⟩

theorem tied_run {w : World} (h : w.Tied) (events : List Event) : (w.run events).Tied :=
  run_induction h (fun _ event h => h.step event) events

/-- A fresh token has an empty past. -/
theorem tied_fresh {config : TokenConfig} {client : Client}
    (h : client.capabilities = (Token.fresh config).capabilities) :
    Tied ⟨client, .fresh config, []⟩ := by
  refine ⟨h, rfl, ?_⟩
  intro kind index slot hslot
  exact absurd hslot CodeTable.get?_empty_ne

end World

/-- **One-time codes, over every run.**  Whatever the factory settings of a
token, a host that is not told what it is capable of connects to it; and
whatever calls it makes then, in whatever order, done or failing, the token
unplugged and put back in between,

* every code of an HOTP slot is the code of the secret that was typed last
  since the slot was empty, at the counter of the last write plus the number of
  codes since, with the digits of the last write;
* every code of a TOTP slot is the code of such a secret at the time that the
  clock was set to last, for the period and the digits of the last write,
  whatever three numbers the caller gives. -/
theorem codes_over_runs (config : TokenConfig) (verifyCrc : Bool) :
    ∃ start, World.connect config verifyCrc = .ok start
      ∧ ∀ events : List Event,
          let now := start.run events
          (∀ index temp v client token,
            (Call.hotpCode index temp).perform Token.line now.client now.token
                = (.ok v, client, token) →
              ∃ data counter text secret current code,
                lastWrite? .hotp index now.past = some (data, counter)
                ∧ lastSecret? .hotp index now.past = some text
                ∧ Hex.decode (Utf8.encode text) = .ok secret
                ∧ current.toNat = counter.toNat + uses .hotp index now.past
                ∧ counterCode secret current data.flags.digits = .ok code ∧ v = .text code)
          ∧ (∀ index challenge lastTime lastInterval temp v client token,
            (Call.totpCode index challenge lastTime lastInterval temp).perform Token.line
                now.client now.token = (.ok v, client, token) →
              ∃ data period text secret code,
                lastWrite? .totp index now.past = some (data, UInt16.toUInt64 period)
                ∧ lastSecret? .totp index now.past = some text
                ∧ Hex.decode (Utf8.encode text) = .ok secret
                ∧ timeCode secret (clockOf now.past) data.flags.digits period.toUInt32 = .ok code
                ∧ v = .text code) := by
  obtain ⟨client₀, hconnect, hcap₀⟩ := World.connect_eq config verifyCrc
  refine ⟨_, hconnect, ?_⟩
  intro events now
  have htied : now.Tied := World.tied_run (World.tied_fresh hcap₀) events
  have hwidth : now.token.capabilities.secretLength ≤ Hmac.blockLength :=
    Capabilities.secretLength_le _
  constructor
  · intro index temp v client token hread
    obtain ⟨-, slot, code, hslot, -, hcode, rfl, -⟩ := Call.of_hotpCode hread
    obtain ⟨⟨text, secret, htext, hdecode, hne, hlen, hsecret⟩,
      data, counter, hwrite, hflags, hcounter⟩ := htied.token.slots .hotp index slot hslot
    -- the zeros behind the secret make no difference to its codes
    rw [hsecret, counterCode_padTo hwidth hlen hne, hflags] at hcode
    exact ⟨data, counter, text, secret, slot.details.counter, code, hwrite, htext, hdecode,
      hcounter, hcode, rfl⟩
  · intro index challenge lastTime lastInterval temp v client token hread
    obtain ⟨-, slot, code, hslot, hcode, rfl⟩ := Call.of_totpCode hread
    obtain ⟨⟨text, secret, htext, hdecode, hne, hlen, hsecret⟩,
      data, moving, hwrite, hflags, hmoving⟩ := htied.token.slots .totp index slot hslot
    obtain ⟨period, rfl⟩ := period_of_lastWrite? hwrite
    -- the moving number of a TOTP slot is the period, which never moves
    have hperiod : slot.details.counter.toUInt32 = period.toUInt32 := by
      rw [uses_totp, Nat.add_zero] at hmoving
      rw [UInt64.toNat_inj.mp hmoving]
      exact UInt16.toUInt32_toUInt64 period
    rw [hsecret, timeCode_padTo hwidth hlen hne, hflags, hperiod, htied.token.clock] at hcode
    exact ⟨data, period, text, secret, code, hwrite, htext, hdecode, hcode, rfl⟩

-- The test secret of RFC 4226: the slot is written and its first code read,
-- and the next code is the second of the table.
set_option maxRecDepth 20000 in
example :
    (match World.connect .factory true with
      | .error _ => none
      | .ok start =>
          let temp : Secret := .ofText "temp"
          let data : SlotData := ⟨"a", "3132333435363738393031323334353637383930", {}, ""⟩
          let now := start.run [.call (.firstAuthenticate (.ofText "12345678") temp),
            .call (.writeHotp 0 data 0 temp), .call (.hotpCode 0 ⟨[]⟩), .unplug, .plugIn]
          ((Call.hotpCode 0 ⟨[]⟩).perform Token.line now.client now.token).1.toOption)
      = some (.text "287082") := by decide +kernel

end OtpToken
