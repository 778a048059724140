/-
  OtpToken.Proofs.Client.SafeContents
  ───────────────────────────────────
  **THE PASSWORD SAFE HOLDS WHAT THE PAST PUT INTO IT.**

  What was written last to a slot since it was empty can be told from the calls
  that were done (`lastSafe?`).  The token has exactly that in the slot, each
  text up to its first NUL, and every event preserves this
  (`Token.SafeFromPast`).  So a read answers from the past alone
  (`safe_contents_over_runs`), and only four kinds of calls can change what it
  answers.
-/
import OtpToken.Proofs.Client.Connect
import OtpToken.Proofs.Client.Single
import OtpToken.Proofs.Record

namespace OtpToken

/-! ## §1. What the past tells. -/

/-- What a caller gives for a Password Safe slot. -/
structure SafeData where
  name : String
  login : String
  password : String

/-- What the token keeps of it: each text up to its first NUL. -/
def SafeData.entry (d : SafeData) : SafeEntry :=
  ⟨Utf8.untilNul d.name, Utf8.untilNul d.login, (Secret.ofText d.password).untilNul⟩

namespace Call

/-- What is written to a Password Safe slot. -/
def safeWrite? (index : UInt8) : Call → Option SafeData
  | writeSafe i name login password => if i = index then some ⟨name, login, password⟩ else none
  | _ => none

/-- Whether a Password Safe slot is empty once the call is done; `keeps` says
whether a new AES key leaves the slots in place. -/
def emptiesSafe (keeps : Bool) (index : UInt8) : Call → Bool
  | eraseSafe i => i = index
  | factoryReset _ => true
  | newAesKey _ => !keeps
  | _ => false

/-- The calls that leave every Password Safe slot alone. -/
def sparesSafe (keeps : Bool) : Call → Bool
  | writeSafe .. | eraseSafe _ | factoryReset _ => false
  | newAesKey _ => keeps
  | _ => true

end Call

/-- What was written last to a Password Safe slot since it was empty. -/
def lastSafe? (keeps : Bool) (index : UInt8) (past : List Call) : Option SafeData :=
  (past.takeWhile fun call => !call.emptiesSafe keeps index).findSome? (Call.safeWrite? index)

section Past

variable {keeps : Bool} {index : UInt8} {call : Call} {past : List Call}

theorem lastSafe?_of_empties (h : call.emptiesSafe keeps index = true) :
    lastSafe? keeps index (call :: past) = none := by
  unfold lastSafe?
  rw [List.takeWhile_cons_of_neg (by rw [h]; exact Bool.noConfusion)]
  rfl

theorem lastSafe?_cons (h : call.emptiesSafe keeps index = false) :
    lastSafe? keeps index (call :: past)
      = (call.safeWrite? index <|> lastSafe? keeps index past) := by
  unfold lastSafe?
  rw [List.takeWhile_cons_of_pos (by rw [h]; rfl), List.findSome?_cons]
  cases call.safeWrite? index with
  | none => rfl
  | some d => rfl

-- slot 0 was written again after it was erased, slot 1 only before
example :
    (lastSafe? false 0 [.writeSafe 0 "c" "" "", .eraseSafe 0, .writeSafe 0 "a" "" ""]).map
        SafeData.name = some "c"
      ∧ (lastSafe? false 1 [.newAesKey ⟨[]⟩, .writeSafe 1 "b" "" ""]).map SafeData.name = none :=
  ⟨rfl, rfl⟩

end Past

/-! ## §2. What is read back. -/

/-- A password is kept as bytes, and read back as text. -/
theorem SafeData.password_entry (d : SafeData) :
    Utf8.decodeLossy (Bytes.untilNul d.entry.password.bytes) = Utf8.untilNul d.password := by
  show Utf8.decodeLossy (Bytes.untilNul (Bytes.untilNul (Utf8.encode d.password))) = _
  rw [Bytes.untilNul_untilNul, Utf8.decodeLossy_untilNul]

namespace Call

/-- What a read of the Password Safe answers. -/
def safeAnswer? (s : Store) : Call → Option Value
  | safeName index => some (.text (Utf8.untilNul (s.safeAt index).name))
  | safeLogin index => some (.text (Utf8.untilNul (s.safeAt index).login))
  | safePassword index =>
      some (.text (Utf8.decodeLossy (Bytes.untilNul (s.safeAt index).password.bytes)))
  | safeStatus => some (.safe s.safeStatus)
  | _ => none

variable {call : Call} {c c' : Client} {t t' : Token} {v : Value}

/-- The host reads a text as it was laid out. -/
theorem conclude_text {command : Client → Except Error Command} {label : String} {width : Nat}
    {bs : Bytes} {payload : Payload} (h : Payload.ofBytes label width bs = .ok payload) :
    ((Operation.ask command (.text width)).map Value.text).conclude c payload
      = (.ok (.text (Utf8.decodeLossy (Bytes.untilNul bs))), c) :=
  Operation.conclude_map Value.text (Operation.conclude_ask (Payload.decode_ofBytes h))

/-- It depends on nothing but the Password Safe. -/
theorem safeAnswer?_congr {s s' : Store} (h : s'.safe = s.safe) :
    call.safeAnswer? s' = call.safeAnswer? s := by
  unfold safeAnswer? Store.safeAt Store.safe? Store.safeStatus
  rw [h]

/-- **A read that is done answers what is in the slots.** -/
theorem eq_of_safeAnswer? {w : Value} (hanswer : call.safeAnswer? t.store = some w)
    (h : call.perform Token.line c t = (.ok v, c', t')) : v = w := by
  have hsingle : call.single = true := by
    cases call with
    | writeHotp index data counter temp => cases hanswer
    | writeTotp index data period temp => cases hanswer
    | writeSafe index name login password => cases hanswer
    | _ => rfl
  obtain ⟨x, payload, after, hx, hask, hconclude, -⟩ := of_single_done hsingle h
  have hdone := Token.execute_of_ask_ok hask
  cases call with
  | safeName index =>
    cases hx
    cases hanswer
    obtain ⟨-, htold⟩ := Token.of_tellSafe_ok rfl hdone
    cases (conclude_text htold).symm.trans hconclude
    rw [Utf8.decodeLossy_untilNul]
  | safeLogin index =>
    cases hx
    cases hanswer
    obtain ⟨-, htold⟩ := Token.of_tellSafe_ok rfl hdone
    cases (conclude_text htold).symm.trans hconclude
    rw [Utf8.decodeLossy_untilNul]
  | safePassword index =>
    cases hx
    cases hanswer
    obtain ⟨-, htold⟩ := Token.of_tellSafe_ok rfl hdone
    cases (conclude_text htold).symm.trans hconclude
    rfl
  | safeStatus =>
    cases hx
    cases hanswer
    cases Token.of_withSafe_ok hdone
    have hread : safeStatus.operation.conclude c (.ofSafeStatus t.store.safeStatus)
        = (.ok (.safe t.store.safeStatus),
            { c with known := c.known.withSafe t.store.safeStatus }) := by
      refine Operation.conclude_map Value.safe ?_
      exact Operation.conclude_consult (SafeStatus.decode_ofSafeStatus t.store.safeStatus)
    cases hread.symm.trans hconclude
    rfl
  | _ => cases hanswer

end Call

/-! ## §3. Calls that leave the slots alone. -/

namespace Call

variable {call : Call} {c c' : Client} {t t' : Token} {v : Value} {keeps : Bool}

theorem sparesSafe_of_command? {x : Command} (h : call.sparesSafe keeps = true)
    (hx : call.command? = some x) : x.id.sparesSafe keeps = true := by
  cases call with
  | writeHotp index data counter temp => cases hx
  | writeTotp index data period temp => cases hx
  | writeSafe index name login password => cases hx
  | hotpCode index temp =>
    obtain ⟨number, -, rfl⟩ := Option.map_eq_some_iff.mp hx
    rfl
  | totpCode index challenge lastTime lastInterval temp =>
    obtain ⟨number, -, rfl⟩ := Option.map_eq_some_iff.mp hx
    rfl
  | readSlot kind index =>
    obtain ⟨number, -, rfl⟩ := Option.map_eq_some_iff.mp hx
    rfl
  | slotName kind index =>
    obtain ⟨number, -, rfl⟩ := Option.map_eq_some_iff.mp hx
    rfl
  | eraseSlot kind index temp =>
    obtain ⟨number, -, rfl⟩ := Option.map_eq_some_iff.mp hx
    rfl
  | _ =>
    cases hx
    exact h

/-- A call that leaves the slots alone neither empties nor writes one. -/
theorem passes_of_sparesSafe (h : call.sparesSafe keeps = true) (index : UInt8) :
    call.emptiesSafe keeps index = false ∧ call.safeWrite? index = none := by
  cases call with
  | newAesKey pin => exact ⟨congrArg Bool.not h, rfl⟩
  | writeSafe i name login password => cases h
  | eraseSafe i => cases h
  | factoryReset pin => cases h
  | _ => exact ⟨rfl, rfl⟩

/-- **A call that spares the Password Safe leaves every slot of it alone.** -/
theorem safe_of_spares (hspares : call.sparesSafe t.config.newKeyKeepsSafe = true)
    (h : call.perform Token.line c t = (.ok v, c', t')) : t'.store.safe = t.store.safe := by
  by_cases hsingle : call.single = true
  · obtain ⟨x, payload, after, hx, hask, -⟩ := of_single_done hsingle h
    rw [store_of_command? hx hask]
    refine Command.safe_storeAfter ?_ t.store
    rw [Command.id_norm]
    exact sparesSafe_of_command? hspares hx
  · rcases writes_of_not_single hsingle with ⟨kind, index, data, moving, hwrite⟩ |
      ⟨index, name, login, password, rfl⟩
    · rcases write_ends hwrite h with ⟨why, hfailed, -⟩ | ⟨read, slot, -, -, -, -, -, -, -, rfl, -⟩
      · cases hfailed
      · rfl
    · cases hspares

/-- **What is in a Password Safe slot after a call that was done**: what the call
wrote there, or what was there before, unless the call has emptied it. -/
theorem safe?_of_done (h : call.perform Token.line c t = (.ok v, c', t')) (index : UInt8) :
    t'.store.safe? index
      = if call.emptiesSafe t.config.newKeyKeepsSafe index then none
        else ((call.safeWrite? index).map SafeData.entry <|> t.store.safe? index) := by
  by_cases hspares : call.sparesSafe t.config.newKeyKeepsSafe = true
  · -- the call has nothing to do with any slot
    obtain ⟨hempties, hwrite⟩ := passes_of_sparesSafe hspares index
    unfold Store.safe?
    rw [safe_of_spares hspares h, hempties, hwrite]
    rfl
  · cases call with
    | writeSafe i name login password =>
      rcases of_writeSafe h with ⟨why, hfailed, -⟩ | ⟨contents, -, hslot, rfl, -⟩
      · cases hfailed
      · by_cases hi : i = index
        · subst hi
          have hwrite : safeWrite? i (.writeSafe i name login password)
              = some ⟨name, login, password⟩ := if_pos rfl
          rw [hwrite]
          exact t.store.safe?_putSafe_self hslot
        · have hwrite : safeWrite? index (.writeSafe i name login password) = none := if_neg hi
          rw [hwrite]
          exact t.store.safe?_putSafe_of_ne _ hi
    | eraseSafe i =>
      obtain ⟨x, payload, after, hx, hask, -⟩ := of_single_done rfl h
      have hstore := store_of_command? hx hask
      cases hx
      rw [hstore]
      by_cases hi : i = index
      · subst hi
        have hempties : emptiesSafe t.config.newKeyKeepsSafe i (.eraseSafe i) = true :=
          decide_eq_true rfl
        rw [if_pos hempties]
        exact t.store.safe?_putSafe_none i
      · have hkept : ¬ emptiesSafe t.config.newKeyKeepsSafe index (.eraseSafe i) = true :=
          fun e => hi (of_decide_eq_true e)
        rw [if_neg hkept]
        exact t.store.safe?_putSafe_of_ne _ hi
    | factoryReset pin =>
      obtain ⟨x, payload, after, hx, hask, -⟩ := of_single_done rfl h
      have hstore := store_of_command? hx hask
      cases hx
      rw [hstore]
      exact Store.safe?_empty index
    | newAesKey pin =>
      obtain ⟨x, payload, after, hx, hask, -⟩ := of_single_done rfl h
      have hstore := store_of_command? hx hask
      cases hx
      have hclears : t.config.newKeyKeepsSafe = false := Bool.eq_false_iff.mpr hspares
      rw [hstore, hclears]
      exact t.store.safe?_clearSafe index
    | _ => exact absurd rfl hspares

end Call

/-! ## §4. The slots and the past. -/

/-- **A call that was done has emptied a Password Safe slot, written it, or left it
alone**, and the past says which. -/
theorem Call.safe_of_done {call : Call} {c c' : Client} {t t' : Token} {v : Value}
    (h : call.perform Token.line c t = (.ok v, c', t')) (index : UInt8) (past : List Call) :
    (t'.store.safe? index = none
        ∧ lastSafe? t.config.newKeyKeepsSafe index (call :: past) = none)
      ∨ (∃ d, t'.store.safe? index = some (SafeData.entry d)
          ∧ lastSafe? t.config.newKeyKeepsSafe index (call :: past) = some d)
      ∨ (t'.store.safe? index = t.store.safe? index
          ∧ lastSafe? t.config.newKeyKeepsSafe index (call :: past)
            = lastSafe? t.config.newKeyKeepsSafe index past) := by
  rw [safe?_of_done h index]
  cases hempties : call.emptiesSafe t.config.newKeyKeepsSafe index with
  | true => exact .inl ⟨rfl, lastSafe?_of_empties hempties⟩
  | false =>
    rw [lastSafe?_cons hempties]
    cases call.safeWrite? index with
    | none => exact .inr (.inr ⟨rfl, rfl⟩)
    | some d => exact .inr (.inl ⟨d, rfl, rfl⟩)

/-- Every Password Safe slot holds what the past put into it. -/
def Token.SafeFromPast (t : Token) (past : List Call) : Prop :=
  ∀ index, t.store.safe? index = (lastSafe? t.config.newKeyKeepsSafe index past).map SafeData.entry

/-- The programmed slots are those that something is in. -/
theorem Store.isProgrammed_safeStatus (s : Store) (index : UInt8) :
    s.safeStatus.isProgrammed index = (s.safe? index).isSome := by
  have hflag : s.safeStatus.isProgrammed index
      = ((s.safe[index.toNat]?).map Option.isSome).getD false := by
    unfold safeStatus SafeStatus.isProgrammed Vector.getD
    rw [Array.getD_eq_getD_getElem?, Vector.toArray_map, Array.getElem?_map,
      Vector.getElem?_toArray]
  rw [hflag]
  unfold safe?
  rcases s.safe[index.toNat]? with _ | _ | entry
  · rfl
  · rfl
  · rfl

namespace Token.SafeFromPast

variable {t t' : Token} {past : List Call}

theorem of_same (h : t.SafeFromPast past) (hconfig : t'.config = t.config)
    (hsafe : t'.store.safe = t.store.safe) : t'.SafeFromPast past := by
  intro index
  unfold Store.safe?
  rw [hsafe, hconfig]
  exact h index

/-- **A call that was done leaves in every slot what the past asks for.** -/
theorem cons_of_done {call : Call} {c c' : Client} {v : Value} (h : t.SafeFromPast past)
    (hdone : call.perform Token.line c t = (.ok v, c', t')) : t'.SafeFromPast (call :: past) := by
  intro index
  rw [Call.config_of_perform hdone]
  rcases Call.safe_of_done hdone index past with
    ⟨hslot, hlast⟩ | ⟨d, hslot, hlast⟩ | ⟨hslot, hlast⟩
  · rw [hslot, hlast]
    rfl
  · rw [hslot, hlast]
    rfl
  · rw [hslot, hlast]
    exact h index

/-- A text of a slot, from the past alone. -/
theorem text_eq (h : t.SafeFromPast past) (index : UInt8) (text : SafeEntry → String)
    (given : SafeData → String) (hblank : text .blank = "") (htext : ∀ d, text d.entry = given d) :
    text (t.store.safeAt index)
      = ((lastSafe? t.config.newKeyKeepsSafe index past).map given).getD "" := by
  unfold Store.safeAt
  rw [h index]
  cases lastSafe? t.config.newKeyKeepsSafe index past with
  | none => exact hblank
  | some d => exact htext d

end Token.SafeFromPast

/-! ## §5. Every run. -/

/-- The call is one of the four reads of the Password Safe. -/
def Call.readsSafe : Call → Bool
  | safeName _ | safeLogin _ | safePassword _ | safeStatus => true
  | _ => false

theorem Call.exists_safeAnswer {read : Call} (h : read.readsSafe = true) (s : Store) :
    ∃ w, read.safeAnswer? s = some w := by
  cases read <;> first | exact ⟨_, rfl⟩ | cases h

/-- The event is not a call that can change what is in the Password Safe. -/
def Event.sparesSafe (keeps : Bool) : Event → Bool
  | .call c => c.sparesSafe keeps
  | _ => true

namespace World

variable {config : TokenConfig} {w : World}

/-- **Every event keeps the Password Safe tied to the past.** -/
theorem safeFromPast_step (h : w.token.SafeFromPast w.past)
    (event : Event) : (w.step event).token.SafeFromPast (w.step event).past := by
  cases event with
  | unplug => exact h
  | plugIn => exact h
  | call call =>
    rcases w.step_call call with ⟨why, client, token, hperform, hstep⟩ |
      ⟨v, client, token, hperform, hstep⟩
    · rw [hstep]
      obtain ⟨hstore, -⟩ := Call.stored_of_error hperform
      exact h.of_same (Call.config_of_perform hperform) (congrArg Store.safe hstore)
    · rw [hstep]
      exact h.cons_of_done hperform

/-- An event that spares the Password Safe changes nothing in it. -/
theorem safe_step_of_spares (hfits : w.Fits config) {event : Event}
    (hspares : event.sparesSafe config.newKeyKeepsSafe = true) :
    (w.step event).token.store.safe = w.token.store.safe := by
  cases event with
  | unplug => rfl
  | plugIn => rfl
  | call call =>
    rcases w.step_call call with ⟨why, client, token, hperform, hstep⟩ |
      ⟨v, client, token, hperform, hstep⟩
    · rw [hstep]
      exact congrArg Store.safe (Call.stored_of_error hperform).1
    · rw [hstep]
      have hcall : call.sparesSafe w.token.config.newKeyKeepsSafe = true := by
        rw [hfits.config]
        exact hspares
      exact Call.safe_of_spares hcall hperform

/-- So does a run of such events. -/
theorem safe_run_of_spares (hfits : w.Fits config) {events : List Event}
    (hspares : ∀ event ∈ events, event.sparesSafe config.newKeyKeepsSafe = true) :
    (w.run events).token.store.safe = w.token.store.safe := by
  induction events generalizing w with
  | nil => rfl
  | cons event events ih =>
    have hlater := ih (hfits.step event) fun e he => hspares e (List.mem_cons_of_mem event he)
    exact hlater.trans (safe_step_of_spares hfits (hspares event List.mem_cons_self))

end World

/-- **The contents of the Password Safe, over every run.**  Whatever the
factory settings of a token, a host that is not told what it is capable of
connects to it; and whatever calls it makes then, in whatever order, done or
failing, the token unplugged and put back in between,

* every name, login or password that is read is the one that was written last
  since the slot was empty, up to its first NUL, and the empty text if there is
  none;
* every status that is read has exactly the slots as programmed that were
  written since they were empty;
* whatever happens next, as long as it is no write or erasure of a Password
  Safe slot, no factory reset and no new AES key that clears the slots, leaves
  the slots alone, and every read answers the same as before. -/
theorem safe_contents_over_runs (config : TokenConfig) (verifyCrc : Bool) :
    ∃ start, World.connect config verifyCrc = .ok start
      ∧ ∀ events : List Event,
          let keeps := config.newKeyKeepsSafe
          let now := start.run events
          (∀ index v client token,
            (Call.safeName index).perform Token.line now.client now.token
                = (.ok v, client, token) →
              v = .text (((lastSafe? keeps index now.past).map fun d =>
                Utf8.untilNul d.name).getD ""))
          ∧ (∀ index v client token,
            (Call.safeLogin index).perform Token.line now.client now.token
                = (.ok v, client, token) →
              v = .text (((lastSafe? keeps index now.past).map fun d =>
                Utf8.untilNul d.login).getD ""))
          ∧ (∀ index v client token,
            (Call.safePassword index).perform Token.line now.client now.token
                = (.ok v, client, token) →
              v = .text (((lastSafe? keeps index now.past).map fun d =>
                Utf8.untilNul d.password).getD ""))
          ∧ (∀ v client token,
            Call.safeStatus.perform Token.line now.client now.token = (.ok v, client, token) →
              ∃ s, v = .safe s
                ∧ ∀ index, s.isProgrammed index = (lastSafe? keeps index now.past).isSome)
          ∧ ∀ more : List Event, (∀ event ∈ more, event.sparesSafe keeps = true) →
              let later := now.run more
              later.token.store.safe = now.token.store.safe
              ∧ ∀ (read : Call) v v' client client' token token', read.readsSafe = true →
                read.perform Token.line now.client now.token = (.ok v, client, token) →
                read.perform Token.line later.client later.token = (.ok v', client', token') →
                v' = v := by
  obtain ⟨client₀, hconnect, hcap₀⟩ := World.connect_eq config verifyCrc
  refine ⟨_, hconnect, ?_⟩
  intro events keeps now
  have hstart : Token.SafeFromPast (.fresh config) [] := Store.safe?_empty
  obtain ⟨hfits, hpast⟩ := World.fits_induction
    (w := ⟨client₀, .fresh config, []⟩) (I := fun w => w.token.SafeFromPast w.past)
    ⟨rfl, hcap₀⟩ hstart (fun _ event _ h => World.safeFromPast_step h event) events
  have hkeeps : now.token.config.newKeyKeepsSafe = keeps :=
    congrArg TokenConfig.newKeyKeepsSafe hfits.config
  refine ⟨?_, ?_, ?_, ?_, ?_⟩
  · intro index v client token hread
    have hname := hpast.text_eq index (fun e => Utf8.untilNul e.name)
      (fun d => Utf8.untilNul d.name) rfl fun d => Utf8.untilNul_untilNul d.name
    rw [hkeeps] at hname
    rw [← hname]
    exact Call.eq_of_safeAnswer? rfl hread
  · intro index v client token hread
    have hlogin := hpast.text_eq index (fun e => Utf8.untilNul e.login)
      (fun d => Utf8.untilNul d.login) rfl fun d => Utf8.untilNul_untilNul d.login
    rw [hkeeps] at hlogin
    rw [← hlogin]
    exact Call.eq_of_safeAnswer? rfl hread
  · intro index v client token hread
    have hpassword := hpast.text_eq index
      (fun e => Utf8.decodeLossy (Bytes.untilNul e.password.bytes))
      (fun d => Utf8.untilNul d.password) rfl SafeData.password_entry
    rw [hkeeps] at hpassword
    rw [← hpassword]
    exact Call.eq_of_safeAnswer? rfl hread
  · intro v client token hread
    refine ⟨_, Call.eq_of_safeAnswer? rfl hread, ?_⟩
    intro index
    rw [Store.isProgrammed_safeStatus, hpast index, Option.isSome_map, hkeeps]
  · intro more hspares later
    have hsame : later.token.store.safe = now.token.store.safe :=
      World.safe_run_of_spares hfits hspares
    refine ⟨hsame, ?_⟩
    intro read v v' client client' token token' hreads hread hread'
    obtain ⟨w, hw⟩ := Call.exists_safeAnswer hreads now.token.store
    have hw' : read.safeAnswer? later.token.store = some w := by
      rw [Call.safeAnswer?_congr hsame]
      exact hw
    rw [Call.eq_of_safeAnswer? hw hread,
      Call.eq_of_safeAnswer? hw' hread']

-- The slot outlives a lock, and an erasure that does not arrive.
set_option maxRecDepth 20000 in
example :
    ((World.connect .factory true).toOption.map fun start =>
      let pin : Secret := .ofText "123456"
      let now := start.run
        [.call (.enableSafe pin), .call (.writeSafe 3 "mail\x00old" "me" "secret"),
          .call .lockDevice, .unplug, .call (.eraseSafe 3), .plugIn, .call (.enableSafe pin)]
      ((Call.safeName 3).perform Token.line now.client now.token).1.toOption)
      = some (some (.text "mail")) := by decide +kernel

end OtpToken
