/-
  OtpToken.Proofs.Token.ReadBack
  ──────────────────────────────
  **WHAT IS STORED AND CANNOT BE TOLD AGAIN.**

  A text comes in as bytes of any kind and is kept as a text, with one U+FFFD for
  every piece that is not UTF-8.  That character takes three bytes, so a text can
  be longer than the field that it came in (`Command.Outgrows`).  A token looks
  at the length of the bytes and not at that of the text, so it takes such a
  write, and answers `unknown` to everybody who asks for the text again:

      name of a code slot        told if it has at most 15 bytes
      details of a code slot     told if the token id has at most 13 as well
      name in the safe           told if it has at most 11 bytes
      login in the safe          told if it has at most 32 bytes
      password in the safe       always told

  Nothing else stands in the way: counters and passwords are kept as they came,
  and always fit (`Token.Printable`).  Only bytes that are no text can grow, so if
  nobody writes any, everything can be read back (`Token.TextsFit`).
-/
import OtpToken.Proofs.Token.Alike
import OtpToken.Proofs.Token.Tellable

namespace OtpToken

/-! ## §1. What can be read in a request. -/

/-- The text was made of at most `width` bytes. -/
def Utf8.FromBytes (width : Nat) (s : String) : Prop :=
  ∃ bs : Bytes, bs.length ≤ width ∧ s = decodeLossy bs

/-- **A text grows only if it was made of bytes that are no text.** -/
theorem Utf8.FromBytes.of_grown {width : Nat} {s : String} (h : FromBytes width s)
    (hgrown : width < (encode s).length) :
    ∃ bs : Bytes, bs.length ≤ width ∧ s = decodeLossy bs ∧ decode? bs = none := by
  obtain ⟨bs, hlength, rfl⟩ := h
  refine ⟨bs, hlength, rfl, ?_⟩
  unfold decode?
  refine if_neg fun hsame => ?_
  rw [hsame] at hgrown
  exact absurd hlength (Nat.not_le.mpr hgrown)

/-- A text in a field was made of the bytes of the field. -/
theorem Block.text_fromBytes {n : Nat} (b : Block n) (start width : Nat) :
    Utf8.FromBytes width (b.text start width) :=
  ⟨_, b.length_untilNul_field_le, rfl⟩

namespace Command

/-- What is stored of a command came in a field of a request. -/
def Carried (encoding : CounterEncoding) : Command → Prop
  | writeToSlot _ _ counter _ tokenId =>
      counter ≤ encoding.maximum ∧ Utf8.FromBytes tokenIdWidth tokenId
  | setSafePrimary _ name password =>
      Utf8.FromBytes safeNameWidth name ∧ password.bytes.length ≤ safePasswordWidth
  | setSafeLogin _ login => Utf8.FromBytes safeLoginWidth login
  | _ => True

/-- **Whatever the bytes of a request, its command carries no more than the
fields hold.** -/
theorem carried_of_parse {q : Request} {encoding : CounterEncoding} {c : Command}
    (h : parse q encoding = .ok c) : c.Carried encoding := by
  obtain ⟨id, -, hfound⟩ := found_of_parse h
  cases id with
  | writeToSlot =>
    obtain ⟨counter, hvalue, rfl⟩ := Option.map_eq_some_iff.mp hfound
    exact ⟨counter_le_of_parse h counter rfl, q.payload.text_fromBytes 35 13⟩
  | sendOtpData =>
    obtain ⟨kind, -, rfl⟩ := Option.map_eq_some_iff.mp hfound
    trivial
  | setSafePrimary =>
    cases hfound
    exact ⟨q.payload.text_fromBytes 1 11, q.payload.length_untilNul_field_le⟩
  | setSafeLogin =>
    cases hfound
    exact q.payload.text_fromBytes 1 32
  | _ =>
    -- nothing is stored of the others
    cases hfound
    trivial

/-- The texts that a command stores, each with the width of the field that it is
told in. -/
def texts : Command → List (String × Nat)
  | sendOtpData _ .name _ data => [(Utf8.decodeLossy data.bytes, nameWidth)]
  | writeToSlot _ _ _ _ tokenId => [(tokenId, tokenIdWidth)]
  | setSafePrimary _ name _ => [(name, safeNameWidth)]
  | setSafeLogin _ login => [(login, safeLoginWidth)]
  | _ => []

/-- A text of the command is longer than the field that it is told in. -/
def Outgrows (c : Command) : Prop := ∃ x ∈ c.texts, x.2 < (Utf8.encode x.1).length

/-- The texts of a command that does not outgrow its fields fit. -/
theorem length_of_not_outgrows {c : Command} (h : ¬ c.Outgrows) {text : String} {width : Nat}
    (hx : (text, width) ∈ c.texts) : (Utf8.encode text).length ≤ width :=
  Nat.not_lt.mp fun hlong => h ⟨_, hx, hlong⟩

end Command

/-! ## §2. Counters and passwords always fit. -/

namespace Token

variable {t : Token} {c : Command}

/-- Counters and passwords can be told. -/
structure Printable (t : Token) : Prop where
  counter : ∀ kind index slot, t.store.codes.at? kind index = some slot →
    slot.details.counter ≤ t.encoding.maximum
  password : ∀ index, (t.store.safeAt index).password.bytes.length ≤ safePasswordWidth

theorem printable_fresh (config : TokenConfig) : (fresh config).Printable where
  counter _ _ _ h := by cases CodeTable.at?_empty.symm.trans h
  password index := by
    unfold Store.safeAt
    rw [show (fresh config).store.safe? index = none from Store.safe?_empty index]
    exact Nat.zero_le _

theorem Printable.execute (h : t.Printable) (hcarried : c.Carried t.encoding) :
    (t.execute c).2.Printable where
  counter kind index slot hslot := by
    rw [encoding_eq (effect_execute t c).config_eq]
    cases slot_execute hslot with
    | kept hkept => exact h.counter kind index slot hkept
    | counted hkind hprevious hroom =>
      rw [UInt64.le_iff_toNat_le, CodeSlot.toNat_counted hroom]
      exact UInt64.lt_iff_toNat_lt.mp hroom
    | written hc =>
      subst hc
      exact hcarried.1
  password index := by
    cases hentry : (t.execute c).2.store.safe? index with
    | none =>
      unfold Store.safeAt
      rw [hentry]
      exact Nat.zero_le _
    | some entry =>
      rw [Store.safeAt, hentry]
      cases entry_execute hentry with
      | kept hkept =>
        have hpassword := h.password index
        rw [Store.safeAt, hkept] at hpassword
        exact hpassword
      | primary hc =>
        subst hc
        exact hcarried.2
      | login hc => exact h.password index

/-! ## §3. Texts fit unless one has outgrown its field. -/

/-- Every text that is stored or staged is no longer than its field. -/
structure TextsFit (t : Token) : Prop where
  slots : ∀ kind index slot, t.store.codes.at? kind index = some slot →
    (Utf8.encode slot.details.name).length ≤ nameWidth
      ∧ (Utf8.encode slot.details.tokenId).length ≤ tokenIdWidth
  safe : ∀ index, (Utf8.encode (t.store.safeAt index).name).length ≤ safeNameWidth
    ∧ (Utf8.encode (t.store.safeAt index).login).length ≤ safeLoginWidth
  staged : ∀ name, t.staged.name = some name → (Utf8.encode name).length ≤ nameWidth

theorem textsFit_fresh (config : TokenConfig) : (fresh config).TextsFit where
  slots _ _ _ h := by cases CodeTable.at?_empty.symm.trans h
  safe index := by
    unfold Store.safeAt
    rw [show (fresh config).store.safe? index = none from Store.safe?_empty index]
    exact ⟨Nat.zero_le _, Nat.zero_le _⟩
  staged _ h := by cases h

/-- **A command keeps texts within their fields, unless it was done and one of its
own has outgrown it.** -/
theorem TextsFit.execute (h : t.TextsFit)
    (hc : (t.execute c).1.status = .ok → ¬ c.Outgrows) : (t.execute c).2.TextsFit := by
  have heffect := effect_execute t c
  have hstaged : ∀ name, (t.execute c).2.staged.name = some name →
      (Utf8.encode name).length ≤ nameWidth := by
    intro name hname
    rcases staged_execute hname with hkept | ⟨temp, chunk, data, rfl, rfl, -, hdone⟩
    · exact h.staged name hkept
    · exact Command.length_of_not_outgrows (hc hdone) List.mem_cons_self
  cases hstatus : (t.execute c).1 with
  | error status =>
    -- a refused command stores nothing
    have hstore : (t.execute c).2.store = t.store := by
      rw [show t.execute c = (.error status, (t.execute c).2) from Prod.ext hstatus rfl] at heffect
      exact heffect.store_of_refused
    refine ⟨?_, ?_, hstaged⟩
    · rw [hstore]
      exact h.slots
    · rw [hstore]
      exact h.safe
  | ok payload =>
    have hfits : ¬ c.Outgrows := hc (by rw [hstatus]; rfl)
    refine ⟨fun kind index slot hslot => ?_, fun index => ?_, hstaged⟩
    · cases slot_execute hslot with
      | kept hkept => exact h.slots kind index slot hkept
      | counted hkind hprevious =>
        obtain ⟨hname, hid⟩ := h.slots kind index _ hprevious
        exact ⟨hname, hid⟩
      | written hwrite hnumber hname =>
        subst hwrite
        exact ⟨h.staged _ hname, Command.length_of_not_outgrows hfits List.mem_cons_self⟩
    · cases hentry : (t.execute c).2.store.safe? index with
      | none =>
        rw [Store.safeAt, hentry]
        exact ⟨Nat.zero_le _, Nat.zero_le _⟩
      | some entry =>
        rw [Store.safeAt, hentry]
        cases entry_execute hentry with
        | kept hkept =>
          have hsafe := h.safe index
          rw [Store.safeAt, hkept] at hsafe
          exact hsafe
        | primary hwrite =>
          subst hwrite
          exact ⟨Command.length_of_not_outgrows hfits List.mem_cons_self, (h.safe index).2⟩
        | login hwrite =>
          subst hwrite
          exact ⟨(h.safe index).1, Command.length_of_not_outgrows hfits List.mem_cons_self⟩

/-! ## §4. What is answered. -/

/-- **A record is told if its fields fit, and else it is an internal error.** -/
theorem status_tell {fs : List Field} {P : Prop} [Decidable P]
    (hroom : Field.totalWidth fs ≤ 53) (hP : (∀ f ∈ fs, f.Fits) ↔ P) (t : Token) :
    (t.tell (payloadOf fs)).1.status = if P then .ok else .unknown := by
  by_cases h : P
  · obtain ⟨payload, hpayload⟩ := layOut_of_fits 53 fs (hP.mpr h) hroom
    have htold : payloadOf fs = .ok payload := hpayload
    rw [if_pos h, tell_ok htold]
    rfl
  · rw [if_neg h]
    cases hpayload : payloadOf fs with
    | error why =>
      rw [tell_error rfl]
      rfl
    | ok payload => exact absurd (hP.mp (fits_of_layOut hpayload).1) h

theorem status_tell_bytes {label : String} {width : Nat} (bs : Bytes) (hroom : width ≤ 53)
    (t : Token) :
    (t.tell (Payload.ofBytes label width bs)).1.status
      = if bs.length ≤ width then .ok else .unknown := by
  have htotal : Field.totalWidth [⟨label, width, bs⟩] ≤ 53 := hroom
  have hfits : (∀ f ∈ [(⟨label, width, bs⟩ : Field)], f.Fits) ↔ bs.length ≤ width :=
    List.forall_mem_singleton
  exact status_tell htotal hfits t

variable {number index : UInt8} {kind : CodeKind} {slot : CodeSlot}

/-- A programmed slot is read as what is in it. -/
theorem code_of_at? (hslot : t.store.codes.at? kind index = some slot) :
    t.store.code kind index = .ok slot := by
  have hget : t.store.codes.get? kind index = some (some slot) := Option.join_eq_some_iff.mp hslot
  unfold Store.code
  rw [hget]

/-- What is asked of a programmed slot is told of what is in it. -/
theorem tellSlot_of_at? (hnumber : CodeKind.ofSlotNumber? number = some (kind, index))
    (hslot : t.store.codes.at? kind index = some slot)
    (payload : CodeSlot → Except LibraryError Payload) :
    t.tellSlot number payload = t.tell (payload slot) := by
  unfold tellSlot
  rw [withSlot_of_number hnumber, code_of_at? hslot]

theorem status_readSlotName (hnumber : CodeKind.ofSlotNumber? number = some (kind, index))
    (hslot : t.store.codes.at? kind index = some slot) :
    (t.execute (.readSlotName number)).1.status
      = if (Utf8.encode slot.details.name).length ≤ nameWidth then .ok else .unknown := by
  show (t.tellSlot number _).1.status = _
  rw [tellSlot_of_at? hnumber hslot]
  exact status_tell_bytes _ (by decide) t

theorem status_readSlot (h : t.Printable)
    (hnumber : CodeKind.ofSlotNumber? number = some (kind, index))
    (hslot : t.store.codes.at? kind index = some slot) :
    (t.execute (.readSlot number)).1.status
      = if (Utf8.encode slot.details.name).length ≤ nameWidth
            ∧ (Utf8.encode slot.details.tokenId).length ≤ tokenIdWidth then .ok
        else .unknown := by
  have hcounter := (Field.fits_counter_iff _ _).mpr (h.counter kind index slot hslot)
  show (t.tellSlot number _).1.status = _
  rw [tellSlot_of_at? hnumber hslot]
  refine status_tell ?_ ?_ t
  · cases t.encoding <;> exact Nat.le_of_ble_eq_true rfl
  · simp only [List.forall_mem_cons, List.not_mem_nil, false_implies, implies_true, and_true]
    constructor
    · rintro ⟨hname, -, hid, -⟩
      exact ⟨hname, hid⟩
    · rintro ⟨hname, hid⟩
      exact ⟨hname, Field.fits_byte _ _, hid, hcounter⟩

/-- What is asked of the safe while it is enabled. -/
theorem status_tellSafe (hopen : t.safeEnabled = true) (hholds : SlotFamily.safe.holds index = true)
    {label : String} {width : Nat} {field : SafeEntry → Bytes} (hroom : width ≤ 53)
    (hblank : field .blank = []) :
    (t.tellSafe index label width field).1.status
      = if (field (t.store.safeAt index)).length ≤ width then .ok else .unknown := by
  have hlt : index.toNat < safeCapacity := of_decide_eq_true hholds
  have hget : t.store.safe[index.toNat]? = some t.store.safe[index.toNat] :=
    Vector.getElem?_eq_getElem hlt
  have hcontents : (t.store.safe[index.toNat].map field).getD [] = field (t.store.safeAt index) := by
    unfold Store.safeAt Store.safe?
    rw [hget]
    cases t.store.safe[index.toNat] with
    | none => exact hblank.symm
    | some entry => rfl
  unfold tellSafe withSafe Store.safeEntry
  rw [if_pos hopen, hget]
  dsimp only
  rw [hcontents]
  exact status_tell_bytes _ hroom t

end Token

/-! ## §5. Dialogues. -/

namespace Dialogue

/-- One more report: nothing is heard in it, or a command is carried out. -/
theorem hear_executes {d : Dialogue} (hplug : d.token.pluggedIn = true) (report : Report) :
    ((d.hear report).token = d.token ∧ ∃ x, (d.hear report).past = x :: d.past)
      ∨ ∃ c, Command.ofReport? d.token.encoding report = some c
          ∧ (d.hear report).token = (d.token.execute c).2
          ∧ (d.hear report).past = ⟨some c, (d.token.execute c).1.status⟩ :: d.past := by
  obtain ⟨reply, hsend, hpast, ⟨-, -, hsame⟩ | ⟨c, answer, hc, heffect, hstatus⟩⟩ :=
    hear_cases hplug report
  · exact .inl ⟨hsame, _, hpast⟩
  · have hcommand : Command.ofReport? d.token.encoding report = some c := hc
    obtain ⟨q, hanswer⟩ := Token.send_of_command hplug hcommand
    obtain ⟨hreply, htoken⟩ := Prod.mk.inj (hsend.symm.trans hanswer)
    have htold : (Exchange.seen d.token.encoding report reply).status
        = (d.token.execute c).1.status := by
      rw [Except.ok.inj hreply]
      exact Token.status_respond q (d.token.execute_ne_busy c)
    refine .inr ⟨c, hcommand, htoken, ?_⟩
    rw [hpast, ← htold, ← hc]

/-- **Counters and passwords can be told on every token.** -/
theorem printable_run (config : TokenConfig) (reports : List Report) :
    ((start config).run reports).token.Printable := by
  refine start_induction (I := fun d => d.token.Printable) (Token.printable_fresh config) ?_ reports
  intro reports report h
  obtain ⟨-, hplug⟩ := fixed_run config reports
  rcases hear_executes hplug report with ⟨hsame, -⟩ | ⟨c, hc, htoken, -⟩
  · rw [hsame]
    exact h
  · obtain ⟨q, -, hparse⟩ := Command.of_ofReport? hc
    rw [htoken]
    exact h.execute (Command.carried_of_parse hparse)

/-- What every command keeps, unless it is done and of a kind that does not, is
true of every token on which none of that kind was done. -/
theorem run_unless {I : Token → Prop} {Breaks : Command → Prop} {config : TokenConfig}
    (hfresh : I (.fresh config))
    (hexecute : ∀ t c, I t → ((t.execute c).1.status = .ok → ¬ Breaks c) → I (t.execute c).2)
    (reports : List Report) (h : ∀ x ∈ ((start config).run reports).past, ¬ x.Did Breaks) :
    I ((start config).run reports).token := by
  revert h
  refine start_induction (I := fun d => (∀ x ∈ d.past, ¬ x.Did Breaks) → I d.token)
    (fun _ => hfresh) ?_ reports
  intro reports report ih h
  obtain ⟨-, hplug⟩ := fixed_run config reports
  rcases hear_executes hplug report with ⟨hsame, x, hpast⟩ | ⟨c, -, htoken, hpast⟩
  · rw [hsame]
    rw [hpast] at h
    exact ih fun y hy => h y (List.mem_cons_of_mem x hy)
  · rw [htoken]
    rw [hpast] at h
    obtain ⟨hlast, hbefore⟩ := List.forall_mem_cons.mp h
    exact hexecute _ c (ih hbefore) fun hdone hbreaks => hlast ⟨hdone, c, rfl, hbreaks⟩

/-- **Texts fit on every token on which none was written that has outgrown its
field.** -/
theorem textsFit_run (config : TokenConfig) (reports : List Report)
    (h : ∀ x ∈ ((start config).run reports).past, ¬ x.Did Command.Outgrows) :
    ((start config).run reports).token.TextsFit :=
  run_unless (Token.textsFit_fresh config) (fun _ _ hfit hc => hfit.execute hc) reports h

/-- A write that is done with a text that has outgrown its field has read it in
bytes that are no text. -/
theorem of_outgrows {t : Token} {report : Report} {c : Command}
    (hc : Command.ofReport? t.encoding report = some c) (hdone : (t.execute c).1.status = .ok)
    (h : c.Outgrows) :
    ∃ text width bs, (text, width) ∈ c.texts ∧ bs.length ≤ width ∧ text = Utf8.decodeLossy bs
      ∧ Utf8.decode? bs = none := by
  obtain ⟨q, -, hparse⟩ := Command.of_ofReport? hc
  have hcarried := Command.carried_of_parse hparse
  obtain ⟨⟨text, width⟩, hx, hgrown⟩ := h
  suffices hfrom : Utf8.FromBytes width text by
    obtain ⟨bs, hlength, htext, hnone⟩ := hfrom.of_grown hgrown
    exact ⟨text, width, bs, hx, hlength, htext, hnone⟩
  cases c with
  | sendOtpData temp kind chunk data =>
    cases kind with
    | name =>
      cases List.mem_singleton.mp hx
      cases hr : t.execute (.sendOtpData temp .name chunk data) with
      | mk answer t' =>
        rw [hr] at hdone
        cases answer with
        | ok payload => exact ⟨data.bytes, Token.length_of_sendName hr, rfl⟩
        | error status =>
          have heffect := Token.effect_execute t (.sendOtpData temp .name chunk data)
          rw [hr] at heffect
          exact absurd hdone (heffect.status_of_error rfl).1
    | secret => cases hx
  | writeToSlot temp number counter flags tokenId =>
    cases List.mem_singleton.mp hx
    exact hcarried.2
  | setSafePrimary index name password =>
    cases List.mem_singleton.mp hx
    exact hcarried.1
  | setSafeLogin index login =>
    cases List.mem_singleton.mp hx
    exact hcarried
  | _ => cases hx

/-- **What can be read back of a token**, whatever reports it was sent.

* The name of a programmed code slot is told if it fits, and its details if the
  token id fits as well; else the answer is `unknown`.
* While the safe is enabled, name and login of each slot are told if they fit, and
  the password always; else the answer is `unknown`.
* If no write was done with a text that had outgrown its field, then every text
  fits.
* A write that is done with such a text has read it in bytes that are no text. -/
theorem read_back_over_runs (config : TokenConfig) (reports : List Report) :
    let d := (start config).run reports
    let t := d.token
    (∀ kind index slot number, t.store.codes.at? kind index = some slot →
        CodeKind.ofSlotNumber? number = some (kind, index) →
        (t.execute (.readSlotName number)).1.status
            = (if (Utf8.encode slot.details.name).length ≤ nameWidth then .ok else .unknown)
          ∧ (t.execute (.readSlot number)).1.status
            = if (Utf8.encode slot.details.name).length ≤ nameWidth
                  ∧ (Utf8.encode slot.details.tokenId).length ≤ tokenIdWidth then .ok
              else .unknown)
      ∧ (t.safeEnabled = true → ∀ index, SlotFamily.safe.holds index = true →
          (t.execute (.safeName index)).1.status
              = (if (Utf8.encode (t.store.safeAt index).name).length ≤ safeNameWidth then .ok
                else .unknown)
            ∧ (t.execute (.safeLogin index)).1.status
              = (if (Utf8.encode (t.store.safeAt index).login).length ≤ safeLoginWidth then .ok
                else .unknown)
            ∧ (t.execute (.safePassword index)).1.status = .ok)
      ∧ ((∀ x ∈ d.past, ¬ x.Did Command.Outgrows) → t.TextsFit)
      ∧ ∀ report c, Command.ofReport? t.encoding report = some c →
          (t.execute c).1.status = .ok → c.Outgrows →
          ∃ text width bs, (text, width) ∈ c.texts ∧ bs.length ≤ width
            ∧ text = Utf8.decodeLossy bs ∧ Utf8.decode? bs = none := by
  intro d t
  have hprintable : t.Printable := printable_run config reports
  refine ⟨fun kind index slot number hslot hnumber => ?_, fun hopen index hholds => ?_,
    textsFit_run config reports, fun report c => of_outgrows⟩
  · exact ⟨Token.status_readSlotName hnumber hslot, Token.status_readSlot hprintable hnumber hslot⟩
  · refine ⟨Token.status_tellSafe hopen hholds (by decide) rfl,
      Token.status_tellSafe hopen hholds (by decide) rfl, ?_⟩
    have hpassword : (t.execute (.safePassword index)).1.status
        = if (t.store.safeAt index).password.bytes.length ≤ safePasswordWidth then .ok
          else .unknown :=
      Token.status_tellSafe hopen hholds (by decide) rfl
    rw [hpassword, if_pos (hprintable.password index)]

/-- A slot is programmed with a name of fifteen bytes that are no text. -/
def noText : Dialogue :=
  (start .factory).run <| Command.reports .binary
    [.firstAuthenticate (.ofText "12345678") (.ofText "temp"),
      .sendOtpData (.ofText "temp") .name 0 ⟨List.replicate 15 0xFF⟩,
      .sendOtpData (.ofText "temp") .secret 0 (.ofText "12345678901234567890"),
      .writeToSlot (.ofText "temp") 16 0 default "id"]

set_option maxRecDepth 20000 in
/-- It is not true that the name of every programmed slot can be read back: those
fifteen bytes are taken, kept as a text of forty-five, and cannot be told. -/
theorem not_all_read_back :
    ¬ ∀ (config : TokenConfig) (reports : List Report),
        let t := ((start config).run reports).token
        ∀ kind index slot number, t.store.codes.at? kind index = some slot →
          CodeKind.ofSlotNumber? number = some (kind, index) →
          (t.execute (.readSlotName number)).1.status = .ok := by
  intro h
  have hprogrammed : (noText.token.store.codes.at? .hotp 0).isSome = true := by decide +kernel
  have hunknown : (noText.token.execute (.readSlotName 16)).1.status = .unknown := by
    decide +kernel
  obtain ⟨slot, hslot⟩ := Option.isSome_iff_exists.mp hprogrammed
  unfold noText at hslot hunknown
  cases hunknown.symm.trans (h _ _ _ _ _ _ hslot rfl)

end Dialogue

end OtpToken
