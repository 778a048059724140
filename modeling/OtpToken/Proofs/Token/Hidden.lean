/-
  OtpToken.Proofs.Token.Hidden
  ────────────────────────────
  **A LOCKED PASSWORD SAFE TELLS NOTHING.**

  Two tokens that differ only in what is in the Password Safe are given the same
  reports while it is closed.  One command keeps them so (`execute_swapSafe`):

      about code slots, config, staging   the Password Safe is handed on
      about Password Safe slots           barred at both
      factory reset, new AES key          emptied at both, or kept
      every other command                 looks at no slot

  So they reply the same until somebody opens the Password Safe, and for ever
  if it was emptied before that (`locked_safe_hidden`).
-/
import OtpToken.Proofs.Token.Alike
import OtpToken.Proofs.Token.SafeGate

namespace OtpToken

/-! ## §1. Other contents. -/

/-- What the slots of a Password Safe are programmed with. -/
abbrev SafeContents : Type := Vector (Option SafeEntry) safeCapacity

/-- The commands that empty the Password Safe when they are done; `keeps` says
whether a new AES key leaves it in place. -/
def CommandId.emptiesSafe (keeps : Bool) : CommandId → Bool
  | factoryReset => true
  | newAesKey => !keeps
  | _ => false

namespace Store

/-- The store with other contents in the Password Safe. -/
def swapSafe (s : Store) (safe : SafeContents) : Store := { s with safe }

variable (s : Store) (safe : SafeContents)

theorem codes_swapSafe : (s.swapSafe safe).codes = s.codes := rfl

theorem writeCode_swapSafe (kind : CodeKind) (index : UInt8) (w : CodeWrite) :
    (s.swapSafe safe).writeCode kind index w
      = ((s.writeCode kind index w).1, (s.writeCode kind index w).2.swapSafe safe) := by
  unfold writeCode
  rw [codes_swapSafe]
  -- in the order of the checks: name, period, index, secret
  split
  · rfl
  split
  · rfl
  cases s.codes.get? kind index with
  | none => rfl
  | some previous =>
    dsimp only
    cases w.secret <|> previous.map CodeSlot.secret with
    | none => rfl
    | some secret => rfl

theorem eraseCode_swapSafe (kind : CodeKind) (index : UInt8) :
    (s.swapSafe safe).eraseCode kind index
      = ((s.eraseCode kind index).1, (s.eraseCode kind index).2.swapSafe safe) := by
  unfold eraseCode
  rw [codes_swapSafe]
  cases s.codes.get? kind index with
  | none => rfl
  | some previous => rfl

theorem nextHotp_swapSafe (index : UInt8) (maximum : UInt64) :
    (s.swapSafe safe).nextHotp index maximum
      = ((s.nextHotp index maximum).1, (s.nextHotp index maximum).2.swapSafe safe) := by
  unfold nextHotp code
  rw [codes_swapSafe]
  cases s.codes.get? .hotp index with
  | none => rfl
  | some contents =>
    cases contents with
    | none => rfl
    | some slot =>
      dsimp only
      split
      · rfl
      · cases codeValue slot.secret.bytes slot.details.counter slot.details.flags.digits with
        | error why => rfl
        | ok code => rfl

end Store

/-! ## §2. One command. -/

namespace Token

/-- The token with other contents in the Password Safe. -/
def swapSafe (t : Token) (safe : SafeContents) : Token :=
  t.mapStored (fun s => s.swapSafe safe) id

/-- Two commands were answered alike, and the tokens after them differ in the
Password Safe only. -/
def Swapped (safe : SafeContents) (r r' : Answer × Token) : Prop :=
  r' = (r.1, r.2.swapSafe safe)

section Codes

variable (t : Token) (safe : SafeContents)

theorem stage_swapSafe (kind : DataKind) (chunk : UInt8) (data : Bytes) :
    Swapped safe (t.stage kind chunk data) ((t.swapSafe safe).stage kind chunk data) := by
  have hchunk : (t.swapSafe safe).staged.withChunk (t.swapSafe safe).capabilities.secretLength
      chunk data = t.staged.withChunk t.capabilities.secretLength chunk data := rfl
  unfold stage
  rw [hchunk]
  cases kind with
  | name =>
    dsimp only
    split
    · rfl
    · rfl
  | secret => rfl

theorem writeStaged_swapSafe (number : UInt8) (counter : UInt64) (flags : SlotFlags)
    (tokenId : String) :
    Swapped safe (t.writeStaged number counter flags tokenId)
      ((t.swapSafe safe).writeStaged number counter flags tokenId) := by
  refine withSlot_both rfl fun kind index => ?_
  have hname : (t.swapSafe safe).staged.name = t.staged.name := rfl
  rw [hname]
  cases t.staged.name with
  | none => rfl
  | some name =>
    have hwrite := t.store.writeCode_swapSafe safe kind index
      ⟨⟨name, flags, tokenId, counter⟩, t.staged.secret.map Secret.mk⟩
    exact (congrArg _ hwrite).trans (commit_mapStored (f := fun s => s.swapSafe safe) (g := id)
      { t with staged := .empty } _)

theorem tellSlot_swapSafe (number : UInt8) (payload : CodeSlot → Except LibraryError Payload) :
    Swapped safe (t.tellSlot number payload) ((t.swapSafe safe).tellSlot number payload) := by
  refine withSlot_both rfl fun kind index => ?_
  have hcode : (t.swapSafe safe).store.code kind index = t.store.code kind index := rfl
  rw [hcode]
  cases t.store.code kind index with
  | error status => rfl
  | ok slot => rfl

theorem giveCode_swapSafe (number : UInt8) :
    Swapped safe (t.giveCode number) ((t.swapSafe safe).giveCode number) := by
  refine withSlot_both rfl fun kind index => ?_
  cases kind with
  | hotp =>
    have hnext : (t.swapSafe safe).store.nextHotp index (t.swapSafe safe).encoding.maximum
        = ((t.store.nextHotp index t.encoding.maximum).1,
            (t.store.nextHotp index t.encoding.maximum).2.swapSafe safe) :=
      t.store.nextHotp_swapSafe safe index _
    dsimp only
    rw [hnext]
    obtain ⟨status | record, store⟩ := t.store.nextHotp index t.encoding.maximum
    · rfl
    · rfl
  | totp =>
    have htotp : (t.swapSafe safe).store.totp index (t.swapSafe safe).clock
        = t.store.totp index t.clock := rfl
    dsimp only
    rw [htotp]
    cases t.store.totp index t.clock with
    | error status => rfl
    | ok record => rfl

theorem eraseSlot_swapSafe (number : UInt8) (temp : Secret) :
    Swapped safe (t.execute (.eraseSlot number temp))
      ((t.swapSafe safe).execute (.eraseSlot number temp)) := by
  refine withTemp_both rfl rfl (withSlot_both rfl fun kind index => ?_)
  have herase : (t.swapSafe safe).store.eraseCode kind index
      = ((t.store.eraseCode kind index).1, (t.store.eraseCode kind index).2.swapSafe safe) :=
    t.store.eraseCode_swapSafe safe kind index
  rw [herase]
  obtain ⟨status | _, store⟩ := t.store.eraseCode kind index
  · rfl
  · rfl

end Codes

variable {t : Token} {c : Command} {safe : SafeContents}

/-- A locked Password Safe bars its commands, whatever is in it. -/
theorem swapped_of_usesSafe (h : c.id.usesSafe = true) (hlocked : t.safeEnabled = false) :
    Swapped safe (t.execute c) ((t.swapSafe safe).execute c) := by
  have hbar : t.allows c = false := (allows_of_usesSafe h).trans hlocked
  have hbar' : (t.swapSafe safe).allows c = false := (allows_of_usesSafe h).trans hlocked
  rw [(effect_execute t c).eq_of_barred hbar, (effect_execute _ c).eq_of_barred hbar']
  rfl

/-- A new AES key closes the Password Safe, and keeps what is in it or not. -/
theorem renewKey_swapSafe (t : Token) (safe : SafeContents) :
    (t.swapSafe safe).renewKey
      = if t.config.newKeyKeepsSafe then t.renewKey.swapSafe safe else t.renewKey := by
  unfold renewKey
  cases hkeeps : t.config.newKeyKeepsSafe with
  | false =>
    show Token.mk _ _ (if t.config.newKeyKeepsSafe then _ else _) _ _ _ _ _ = _
    rw [hkeeps]
    rfl
  | true =>
    show Token.mk _ _ (if t.config.newKeyKeepsSafe then _ else _) _ _ _ _ _ = _
    rw [hkeeps]
    rfl

/-- What a reset or a new AES key leaves of the difference. -/
theorem swapped_of_withPin {pin : Secret} (t : Token) (safe : SafeContents)
    (next : Token → Answer × Token)
    (hnext : ∀ t : Token, ∃ safe', Swapped safe' (next t) (next (t.swapSafe safe))) :
    ∃ safe', Swapped safe' (t.withPin .admin pin next)
      ((t.swapSafe safe).withPin .admin pin next) :=
  withPin_both (R := fun r r' => ∃ safe', Swapped safe' r r') rfl (fun _ _ => ⟨safe, rfl⟩)
    fun session => hnext { t with session }

/-- **A command that empties the Password Safe leaves no difference.** -/
theorem execute_swapSafe_of_empties {payload : Payload}
    (h : c.id.emptiesSafe t.config.newKeyKeepsSafe = true)
    (hdone : (t.execute c).1 = .ok payload) : (t.swapSafe safe).execute c = t.execute c := by
  revert hdone
  cases c with
  | factoryReset pin =>
    show (t.withPin .admin pin fun t => done t.factoryReset).1 = _ →
      ((t.swapSafe safe).withPin .admin pin fun t => done t.factoryReset)
        = t.withPin .admin pin fun t => done t.factoryReset
    exact withPin_both (R := fun r r' => r.1 = .ok payload → r' = r) rfl (fun _ _ h => nomatch h)
      fun _ _ => rfl
  | newAesKey pin =>
    have hkeeps : t.config.newKeyKeepsSafe = false := (Bool.not_eq_true' _).mp h
    show (t.withPin .admin pin fun t => done t.renewKey).1 = _ →
      ((t.swapSafe safe).withPin .admin pin fun t => done t.renewKey)
        = t.withPin .admin pin fun t => done t.renewKey
    refine withPin_both (R := fun r r' => r.1 = .ok payload → r' = r) rfl (fun _ _ h => nomatch h)
      fun session _ => congrArg done ?_
    refine (renewKey_swapSafe { t with session } safe).trans ?_
    exact if_neg (Bool.eq_false_iff.mp hkeeps)
  | _ => cases h

/-- **One command does not look into a locked Password Safe**: the answer is
the same whatever is in it, and the tokens differ by nothing else
afterwards. -/
theorem execute_swapSafe (hlocked : t.safeEnabled = false) (c : Command) (safe : SafeContents) :
    ∃ safe', Swapped safe' (t.execute c) ((t.swapSafe safe).execute c) := by
  cases c with
  | sendOtpData temp kind chunk data =>
    exact ⟨safe, withTemp_both rfl rfl (t.stage_swapSafe safe kind chunk data.bytes)⟩
  | writeToSlot temp number counter flags tokenId =>
    exact ⟨safe, withTemp_both rfl rfl (t.writeStaged_swapSafe safe number counter flags tokenId)⟩
  | readSlotName number => exact ⟨safe, t.tellSlot_swapSafe safe number _⟩
  | readSlot number => exact ⟨safe, t.tellSlot_swapSafe safe number _⟩
  | getCode number challenge lastTime lastInterval temp =>
    have hgive := t.giveCode_swapSafe safe number
    refine ⟨safe, ?_⟩
    show Swapped safe _ (if t.store.config.protectsCodes then _ else _)
    unfold execute
    dsimp only
    split
    · exact withTemp_both rfl rfl hgive
    · exact hgive
  | writeConfig config temp => exact ⟨safe, withTemp_both rfl rfl rfl⟩
  | eraseSlot number temp => exact ⟨safe, t.eraseSlot_swapSafe safe number temp⟩
  | factoryReset pin =>
    exact swapped_of_withPin t safe (fun t => done t.factoryReset) fun t =>
      ⟨t.factoryReset.store.safe, rfl⟩
  | newAesKey pin =>
    refine swapped_of_withPin t safe (fun t => done t.renewKey) fun t => ?_
    rw [renewKey_swapSafe]
    split
    · exact ⟨safe, rfl⟩
    · exact ⟨t.renewKey.store.safe, rfl⟩
  | _ =>
    first
    | exact ⟨safe, execute_mapStored rfl t rfl⟩
    | exact ⟨safe, swapped_of_usesSafe rfl hlocked⟩

/-- Nothing but a command that was done opens the Password Safe. -/
theorem locked_execute (hlocked : t.safeEnabled = false)
    (hnot : ¬ ((t.execute c).1.status = .ok ∧ c.id = .enableSafe)) :
    (t.execute c).2.safeEnabled = false := by
  have hswitch := congrArg Switches.safeEnabled (effect_execute t c).switches_eq
  refine hswitch.trans ?_
  split
  · next hok =>
    cases c with
    | enableSafe pin => exact absurd ⟨hok, rfl⟩ hnot
    | lockDevice => rfl
    | factoryReset pin => rfl
    | newAesKey pin => rfl
    | _ => exact hlocked
  · exact hlocked

end Token

/-! ## §3. One report. -/

/-- Two dialogues in which the same was said, and tokens that differ at most in
a Password Safe that is locked. -/
structure Dialogue.Hides (config : TokenConfig) (d d' : Dialogue) : Prop where
  past : d'.past = d.past
  settings : d.token.config = config
  locked : d.token.safeEnabled = false
  token : ∃ safe, d'.token = d.token.swapSafe safe
  /-- Nothing differs once the Password Safe was emptied. -/
  emptied : (∃ x ∈ d.past, x.Did fun c => c.id.emptiesSafe config.newKeyKeepsSafe = true) →
    d'.token = d.token

namespace Dialogue.Hides

variable {config : TokenConfig} {d d' : Dialogue}

theorem config_eq (h : d.Hides config d') : d'.token.config = d.token.config := by
  obtain ⟨safe, htoken⟩ := h.token
  rw [htoken]
  rfl

theorem pluggedIn_eq (h : d.Hides config d') : d'.token.pluggedIn = d.token.pluggedIn := by
  obtain ⟨safe, htoken⟩ := h.token
  rw [htoken]
  rfl

/-- **The next reply is the same**, whatever the report. -/
theorem reply_eq (h : d.Hides config d') (report : Report) :
    (d'.token.send report).1 = (d.token.send report).1 := by
  obtain ⟨safe, htoken⟩ := h.token
  refine Token.reply_alike h.config_eq h.pluggedIn_eq fun c _ => ?_
  obtain ⟨safe', hswapped⟩ := Token.execute_swapSafe h.locked c safe
  rw [htoken, hswapped]

/-- What is hidden stays hidden, as long as nobody opens the Password Safe. -/
theorem hear (h : d.Hides config d') {report : Report}
    (hclosed : ∀ x ∈ (d.hear report).past, ¬ x.Did fun c => c.id = .enableSafe) :
    (d.hear report).Hides config (d'.hear report) := by
  have hencoding : d'.token.encoding = d.token.encoding :=
    congrArg Capabilities.encoding (Token.capabilities_eq h.config_eq)
  rcases Token.send_alike h.config_eq h.pluggedIn_eq report with
    ⟨reply, hsend, hsend', hnone⟩ | ⟨q, c, hc, hsend, hsend'⟩
  · cases reply with
    | error why =>
      rw [hear_of_no_reply hsend, hear_of_no_reply hsend']
      exact h
    | ok told =>
      -- nothing was understood: the past grows by an exchange without a command
      rw [hear_of_reply hsend, hear_of_reply hsend', hencoding, h.past]
      refine ⟨rfl, h.settings, h.locked, h.token, ?_⟩
      rintro ⟨x, hx, hdid⟩
      rcases List.mem_cons.mp hx with rfl | hx
      · exact absurd hdid (Exchange.not_did (hnone told rfl))
      · exact h.emptied ⟨x, hx, hdid⟩
  · have hseen := Token.seen_respond hc q
    have hseen' := Token.seen_respond (t := d'.token) (hencoding ▸ hc) q
    rw [hear_of_reply hsend, hseen] at hclosed ⊢
    rw [hear_of_reply hsend', hseen', h.past]
    have hlocked := Token.locked_execute h.locked fun hopen =>
      hclosed _ List.mem_cons_self ⟨hopen.1, c, rfl, hopen.2⟩
    obtain ⟨safe, htoken⟩ := h.token
    obtain ⟨safe', hswapped⟩ := Token.execute_swapSafe h.locked c safe
    have htoken' : (d'.token.execute c).2 = (d.token.execute c).2.swapSafe safe' := by
      rw [htoken, hswapped]
    have hanswer : (d'.token.execute c).1 = (d.token.execute c).1 := by rw [htoken, hswapped]
    rw [hanswer]
    refine ⟨rfl, ?_, hlocked, ⟨safe', htoken'⟩, ?_⟩
    · exact (Token.effect_execute d.token c).config_eq.trans h.settings
    rintro ⟨x, hx, hdid⟩
    rcases List.mem_cons.mp hx with rfl | hx
    · -- it was emptied just now
      obtain ⟨hok, hempties⟩ := (Exchange.did_iff rfl).mp hdid
      cases hr : (d.token.execute c).1 with
      | error status =>
        rw [hr] at hok
        exact absurd hok ((Token.effect_execute d.token c).status_of_error hr).1
      | ok payload =>
        rw [← h.settings] at hempties
        rw [htoken, Token.execute_swapSafe_of_empties hempties hr]
    · rw [h.emptied ⟨x, hx, hdid⟩]

/-- **So it is over a run** in which nobody opens the Password Safe. -/
theorem run (h : d.Hides config d') {reports : List Report}
    (hclosed : ∀ x ∈ (d.run reports).past, ¬ x.Did fun c => c.id = .enableSafe) :
    d'.token.replies reports = d.token.replies reports
      ∧ (d.run reports).Hides config (d'.run reports) := by
  induction reports generalizing d d' with
  | nil => exact ⟨rfl, h⟩
  | cons report reports ih =>
    have hhear : (d.hear report).Hides config (d'.hear report) :=
      h.hear fun x hx => hclosed x ((past_suffix (d.hear report) reports).subset hx)
    obtain ⟨hreplies, hrun⟩ := ih hhear hclosed
    rw [token_hear, token_hear] at hreplies
    refine ⟨?_, hrun⟩
    unfold Token.replies
    rw [h.reply_eq, hreplies]

end Dialogue.Hides

/-! ## §4. Every run. -/

/-- **A locked Password Safe tells nothing.**  Give a token whose Password Safe
is closed, and the same token with anything else in it, the same reports.  As
long as nobody opens the Password Safe both reply the same, up to and including
the reply that opens it.  If it was emptied before that, by a factory reset or
by a new AES key that does not keep it, they reply the same for ever. -/
theorem locked_safe_hidden (t : Token) (safe : SafeContents) (reports : List Report)
    (hlocked : t.safeEnabled = false)
    (hclosed : ∀ x ∈ ((⟨t, []⟩ : Dialogue).run reports).past,
      ¬ x.Did fun c => c.id = .enableSafe) :
    (∀ report, (t.swapSafe safe).replies (reports ++ [report])
        = t.replies (reports ++ [report]))
      ∧ ((∃ x ∈ ((⟨t, []⟩ : Dialogue).run reports).past,
            x.Did fun c => c.id.emptiesSafe t.config.newKeyKeepsSafe = true) →
          ∀ more, (t.swapSafe safe).replies (reports ++ more) = t.replies (reports ++ more)) := by
  have hstart : (⟨t, []⟩ : Dialogue).Hides t.config ⟨t.swapSafe safe, []⟩ := by
    refine ⟨rfl, rfl, hlocked, ⟨safe, rfl⟩, ?_⟩
    rintro ⟨x, hx, -⟩
    cases hx
  obtain ⟨hreplies, hrun⟩ := hstart.run hclosed
  have hreplies : (t.swapSafe safe).replies reports = t.replies reports := hreplies
  have hafter : ((⟨t, []⟩ : Dialogue).run reports).token = t.after reports :=
    Dialogue.token_run _ _
  have hafter' : ((⟨t.swapSafe safe, []⟩ : Dialogue).run reports).token
      = (t.swapSafe safe).after reports := Dialogue.token_run _ _
  constructor
  · intro report
    have hreply := hrun.reply_eq report
    rw [hafter, hafter'] at hreply
    rw [Token.replies_append, Token.replies_append, hreplies, Token.replies, Token.replies, hreply]
    rfl
  · intro hemptied more
    have heq := hrun.emptied hemptied
    rw [hafter, hafter'] at heq
    rw [Token.replies_append, Token.replies_append, hreplies, heq]

set_option maxRecDepth 20000 in
/-- Once an unconfigured token has been given a new AES key, nobody can tell
whether there was a login in every slot of its Password Safe or none. -/
theorem locked_safe_hidden_newAesKey :
    let t := Token.fresh .factory
    let full : SafeContents := .replicate _ (some ⟨"mail", "alice", .ofText "hunter2"⟩)
    let reports := Command.reports t.encoding [.newAesKey (.ofText "12345678")]
    reports.length = 1 ∧ (t.swapSafe full).store.safeStatus ≠ t.store.safeStatus
      ∧ ∀ more, (t.swapSafe full).replies (reports ++ more) = t.replies (reports ++ more) := by
  intro t full reports
  have hclosed : ∀ x ∈ ((⟨t, []⟩ : Dialogue).run reports).past,
      ¬ x.Did fun c => c.id = .enableSafe := by decide +kernel
  have hemptied : ∃ x ∈ ((⟨t, []⟩ : Dialogue).run reports).past,
      x.Did fun c => c.id.emptiesSafe t.config.newKeyKeepsSafe = true := by decide +kernel
  refine ⟨by decide +kernel, by decide +kernel, ?_⟩
  exact (locked_safe_hidden t full reports rfl hclosed).2 hemptied

end OtpToken
