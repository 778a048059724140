/-
  OtpToken.Proofs.Command.Domain
  ──────────────────────────────
  **WHICH COMMANDS CAN BE SENT, AND WHAT ARRIVES OF THEM.**

  A command has arguments of any length and a request has fields of fixed
  width.  `Command.arguments` lists the arguments that can be too long, each
  with the width that it may have; it says nothing of how a request is laid
  out.  A command can be sent exactly when these arguments fit and its counter
  can be written (`Command.Fits`).  Otherwise the error names the first field
  of the layout that is too small (`toRequest_eq_error_iff`).

  A command that is sent arrives as its normal form.  That is the command
  itself if no argument is cut at a zero byte or filled up with zeros
  (`norm_of_whole`).

  A request with any bytes whatever carries no counter above the maximum
  (`counter_le_of_parse`).
-/
import OtpToken.Proofs.Code
import OtpToken.Proofs.Command.Offsets

namespace OtpToken

/-! ## §1. The first field that is too small. -/

/-- The contents are longer than the field. -/
def Field.tooLong (f : Field) : Bool := f.width < f.bytes.length

theorem Field.fits_iff_not_tooLong {f : Field} : f.Fits ↔ ¬ f.tooLong = true := by
  unfold Fits tooLong
  rw [decide_eq_true_iff, Nat.not_lt]

namespace Draft

variable {size : Nat}

theorem put_of_tooLong (d : Draft size) {f : Field} (h : f.tooLong = true) :
    d.put f = .error (.tooLong f.label f.bytes.length f.width) := by
  unfold put
  rw [dif_pos (of_decide_eq_true h)]

theorem putAll_append (d : Draft size) (fs gs : List Field) :
    d.putAll (fs ++ gs) = (d.putAll fs).bind fun d => d.putAll gs := by
  induction fs generalizing d with
  | nil => rfl
  | cons f fs ih =>
    rw [List.cons_append, putAll, putAll]
    cases d.put f with
    | error why => rfl
    | ok d₁ => exact ih d₁

end Draft

/-- **A layout that fails names its first field that is too small.** -/
theorem layOut_of_first {size : Nat} {fs : List Field} {f : Field}
    (h : fs.find? Field.tooLong = some f) (hr : Field.totalWidth fs ≤ size) :
    layOut size fs = .error (.tooLong f.label f.bytes.length f.width) := by
  obtain ⟨htoo, before, after, rfl, hbefore⟩ := List.find?_eq_some_iff_append.mp h
  have hfits : ∀ g ∈ before, g.Fits := by
    intro g hg
    have hnot := hbefore g hg
    rw [Field.fits_iff_not_tooLong]
    simpa using hnot
  -- the fields in front of it are laid out, and there is room for them
  have hroom : Field.totalWidth before ≤ (Draft.empty size).room := by
    rw [Field.totalWidth_append] at hr
    show _ ≤ size - 0
    omega
  obtain ⟨d, hd, -⟩ := (Draft.empty size).putAll_of_fits before hfits hroom
  have hput : d.putAll (f :: after) = .error (.tooLong f.label f.bytes.length f.width) := by
    rw [Draft.putAll, d.put_of_tooLong htoo]
    rfl
  rw [layOut, Draft.putAll_append, hd]
  show (d.putAll (f :: after)).map Draft.finish = _
  rw [hput]
  rfl

namespace Command

/-- **A command that has no request is refused for the first field of its
layout that is too small**, with the length of its contents and the width of
the field. -/
theorem toRequest_eq_error_iff {c : Command} {encoding : CounterEncoding} {why : LibraryError} :
    c.toRequest encoding = .error why
      ↔ ∃ f, (c.fields encoding).find? Field.tooLong = some f
          ∧ why = .tooLong f.label f.bytes.length f.width := by
  have hsum := sum_width_fields_le encoding c
  have herror : ∀ f, (c.fields encoding).find? Field.tooLong = some f →
      c.toRequest encoding = .error (.tooLong f.label f.bytes.length f.width) := by
    intro f hf
    rw [toRequest, layOut_of_first hf hsum]
    rfl
  constructor
  · intro h
    cases hfind : (c.fields encoding).find? Field.tooLong with
    | none =>
      -- no field is too small, so there is a request
      have hfits : ∀ f ∈ c.fields encoding, f.Fits := by
        intro f hf
        rw [Field.fits_iff_not_tooLong]
        exact List.find?_eq_none.mp hfind f hf
      obtain ⟨q, hq⟩ := (toRequest_isOk_iff c encoding).mpr hfits
      rw [hq] at h
      cases h
    | some f =>
      rw [herror f hfind] at h
      exact ⟨f, rfl, (Except.error.inj h).symm⟩
  · rintro ⟨f, hf, rfl⟩
    exact herror f hf

-- the counter stands before the token id, so its ninth digit is told
example : (writeToSlot ⟨[]⟩ 0 100000000 {} "fourteen bytes").toRequest .ascii
    = .error (.tooLong "counter" 9 8) := rfl

/-! ## §2. The arguments that can be too long. -/

/-- A credential, a text or a piece of data, with the width that it may
have. -/
structure Argument where
  bytes : Bytes
  width : Nat
  /-- Whether it ends at its first zero byte where it arrives; else it is
  filled up with zeros. -/
  terminated : Bool := true

/-- The argument fits. -/
def Argument.Fits (a : Argument) : Prop := a.bytes.length ≤ a.width

instance Argument.decidableFits (a : Argument) : Decidable a.Fits :=
  inferInstanceAs (Decidable (_ ≤ _))

/-- The argument arrives as it is: nothing is cut off, or nothing is filled
up. -/
def Argument.Whole (a : Argument) : Prop :=
  if a.terminated then 0 ∉ a.bytes else a.width ≤ a.bytes.length

/-- The arguments of a command that can be too long. -/
def arguments : Command → List Argument
  | sendOtpData adminTemp kind _ data =>
      [⟨adminTemp.bytes, 25, true⟩, ⟨data.bytes, 30, kind = .name⟩]
  | writeToSlot adminTemp _ _ _ tokenId =>
      [⟨adminTemp.bytes, 25, true⟩, ⟨Utf8.encode tokenId, 13, true⟩]
  | getCode _ _ _ _ temp | writeConfig _ temp | eraseSlot _ temp => [⟨temp.bytes, 25, true⟩]
  | firstAuthenticate pin temp | userAuthenticate pin temp =>
      [⟨pin.bytes, 25, true⟩, ⟨temp.bytes, 25, true⟩]
  | unlockUserPassword pin new | changeUserPin pin new | changeAdminPin pin new =>
      [⟨pin.bytes, 25, true⟩, ⟨new.bytes, 25, true⟩]
  | factoryReset pin | newAesKey pin | detectAes pin => [⟨pin.bytes, 20, true⟩]
  | enableSafe pin => [⟨pin.bytes, 30, true⟩]
  | setSafePrimary _ name password =>
      [⟨Utf8.encode name, 11, true⟩, ⟨password.bytes, 20, true⟩]
  | setSafeLogin _ login => [⟨Utf8.encode login, 32, true⟩]
  | _ => []

/-- The counter in a command. -/
def counter? : Command → Option UInt64
  | writeToSlot _ _ counter _ _ => some counter
  | _ => none

/-- **Everything in a command can be written**: the arguments fit, and a
counter has no more digits than an ASCII field. -/
def Fits (encoding : CounterEncoding) (c : Command) : Prop :=
  (∀ a ∈ c.arguments, a.Fits)
    ∧ (encoding = .ascii → ∀ counter ∈ c.counter?, counter ≤ 99999999)

instance decidableFits (encoding : CounterEncoding) (c : Command) : Decidable (c.Fits encoding) :=
  -- at most one counter is looked at, not every number
  haveI : Decidable (∀ counter ∈ c.counter?, counter ≤ 99999999) :=
    Option.decidableForallMem c.counter?
  inferInstanceAs (Decidable (_ ∧ (_ → ∀ counter ∈ c.counter?, counter ≤ 99999999)))

/-- **The fields of a layout hold what they are given exactly when the
arguments fit.** -/
theorem forall_fits_iff {c : Command} {encoding : CounterEncoding} :
    (∀ f ∈ c.fields encoding, f.Fits) ↔ c.Fits encoding := by
  have hbyte : ∀ label v, (Field.byte label v).Fits := Field.fits_byte
  have hword : ∀ label v, (Field.word64 label v).Fits := Field.fits_word64
  have hsecret : ∀ label width s, (Field.secret label width s).Fits ↔ s.bytes.length ≤ width :=
    fun _ _ _ => Iff.rfl
  have htext : ∀ label width s,
      (Field.text label width s).Fits ↔ (Utf8.encode s).length ≤ width := fun _ _ _ => Iff.rfl
  unfold Fits
  cases c with
  | writeToSlot adminTemp slot counter flags tokenId =>
    -- the counter stands between the two arguments
    simp only [fields, arguments, counter?, adminTempField, slotField, List.forall_mem_cons,
      List.not_mem_nil, false_implies, implies_true, hbyte, hsecret, htext, Argument.Fits,
      Field.fits_counter_iff, CounterEncoding.le_maximum_iff, Option.mem_some_iff, forall_eq',
      true_and, and_true, credentialWidth, tokenIdWidth]
    constructor
    · rintro ⟨htemp, hcounter, hid⟩
      exact ⟨⟨htemp, hid⟩, hcounter⟩
    · rintro ⟨⟨htemp, hid⟩, hcounter⟩
      exact ⟨htemp, hcounter, hid⟩
  | writeConfig config adminTemp =>
    have hconfig : Field.Fits ⟨"config", 5, config.block.bytes⟩ :=
      Nat.le_of_eq config.block.length_bytes
    simp [fields, arguments, counter?, adminTempField, hconfig, hsecret, Argument.Fits,
      credentialWidth]
  | _ =>
    simp [fields, arguments, counter?, adminTempField, slotField, hbyte, hword, hsecret, htext,
      Argument.Fits, credentialWidth, chunkWidth, aesPinWidth, enablePinWidth, safeNameWidth,
      safePasswordWidth, safeLoginWidth]

/-! ## §3. Commands that arrive as they are. -/

end Command

theorem Secret.untilNul_of_not_mem {s : Secret} (h : 0 ∉ s.bytes) : s.untilNul = s := by
  unfold untilNul
  rw [Bytes.untilNul_of_not_mem h]

theorem Utf8.untilNul_of_not_mem {s : String} (h : 0 ∉ encode s) : untilNul s = s := by
  rw [← decodeLossy_untilNul, Bytes.untilNul_of_not_mem h, decodeLossy_encode]

namespace Command

/-- **A command whose arguments arrive as they are arrives as it is.** -/
theorem norm_of_whole {c : Command} (h : ∀ a ∈ c.arguments, a.Whole) : c.norm = c := by
  cases c with
  | sendOtpData adminTemp kind chunk data =>
    cases kind with
    | name =>
      simp only [arguments, Argument.Whole, List.forall_mem_cons, decide_true, if_true] at h
      obtain ⟨htemp, hname, -⟩ := h
      simp only [norm, Secret.untilNul_of_not_mem htemp, Secret.untilNul_of_not_mem hname]
    | secret =>
      simp only [arguments, Argument.Whole, List.forall_mem_cons, reduceCtorEq, decide_false,
        if_true] at h
      obtain ⟨htemp, hpiece, -⟩ := h
      have hfull : Bytes.padTo chunkWidth data.bytes = data.bytes := Bytes.padTo_of_le hpiece
      simp only [norm, Secret.untilNul_of_not_mem htemp, hfull]
  | _ =>
    simp only [arguments, Argument.Whole, List.forall_mem_cons, if_true] at h
    simp [norm, Secret.untilNul_of_not_mem, Utf8.untilNul_of_not_mem, h]

/-! ## §4. What arrives of an argument. -/

/-- The argument as it arrives. -/
def Argument.arrived (a : Argument) : Argument :=
  { a with bytes := if a.terminated then Bytes.untilNul a.bytes else Bytes.padTo a.width a.bytes }

/-- What fits is no longer than its field when it arrives. -/
theorem Argument.fits_arrived {a : Argument} (h : a.Fits) : a.arrived.Fits := by
  unfold Fits at h
  unfold Argument.arrived Fits
  dsimp only
  split
  · exact Nat.le_trans (Bytes.length_untilNul_le _) h
  · exact Nat.le_of_eq (Bytes.length_padTo h)

theorem arguments_norm (c : Command) : c.norm.arguments = c.arguments.map Argument.arrived := by
  cases c with
  | sendOtpData adminTemp kind chunk data => cases kind <;> rfl
  | writeToSlot adminTemp slot counter flags tokenId =>
    show [_, (⟨Utf8.encode (Utf8.untilNul tokenId), 13, true⟩ : Argument)] = _
    rw [← Utf8.untilNul_encode]
    rfl
  | setSafePrimary slot name password =>
    show [(⟨Utf8.encode (Utf8.untilNul name), 11, true⟩ : Argument), _] = _
    rw [← Utf8.untilNul_encode]
    rfl
  | setSafeLogin slot login =>
    show [(⟨Utf8.encode (Utf8.untilNul login), 32, true⟩ : Argument)] = _
    rw [← Utf8.untilNul_encode]
    rfl
  | _ => rfl

theorem counter?_norm (c : Command) : c.norm.counter? = c.counter? := by
  cases c with
  | sendOtpData adminTemp kind chunk data => cases kind <;> rfl
  | _ => rfl

/-- **What fits still fits when it arrives.** -/
theorem Fits.norm {c : Command} {encoding : CounterEncoding} (h : c.Fits encoding) :
    c.norm.Fits encoding := by
  obtain ⟨harguments, hcounter⟩ := h
  unfold Fits
  rw [arguments_norm, counter?_norm]
  refine ⟨fun a ha => ?_, hcounter⟩
  obtain ⟨given, hgiven, rfl⟩ := List.mem_map.mp ha
  exact Argument.fits_arrived (harguments given hgiven)

/-! ## §5. There and back. -/

/-- **Exactly the commands that fit can be sent, and they arrive as their
normal form.**  A command that does not fit is refused for the first field of
its layout that is too small; a command whose arguments arrive as they are
comes back unchanged. -/
theorem sent_iff_fits (c : Command) (encoding : CounterEncoding) :
    ((∃ q, c.toRequest encoding = .ok q) ↔ c.Fits encoding)
      ∧ (∀ why, c.toRequest encoding = .error why
          ↔ ∃ f, (c.fields encoding).find? Field.tooLong = some f
              ∧ why = .tooLong f.label f.bytes.length f.width)
      ∧ (∀ q, c.toRequest encoding = .ok q → parse q encoding = .ok c.norm)
      ∧ ((∀ a ∈ c.arguments, a.Whole) → c.norm = c) := by
  refine ⟨?_, fun why => toRequest_eq_error_iff, fun q => parse_toRequest, norm_of_whole⟩
  rw [toRequest_isOk_iff]
  exact forall_fits_iff

/-! ## §6. Requests that somebody else has made. -/

/-- A token that writes counters in another way reads the same command in a
request, except that it may read another write in that of a write. -/
theorem read_as {c c' : Command} {q : Request} {encoding encoding' : CounterEncoding}
    (hq : c.toRequest encoding = .ok q) (hparse : parse q encoding' = .ok c') :
    c' = c.norm ∨ c.id = .writeToSlot ∧ c'.id = .writeToSlot := by
  by_cases hwrite : c.id = .writeToSlot
  · obtain ⟨id, hid, hfound⟩ := found_of_parse hparse
    rw [command_of_toRequest hq] at hid
    cases CommandId.toByte_inj hid
    exact .inr ⟨hwrite, (id_of_byOffset? hfound).trans hwrite⟩
  · rw [toRequest_of_not_write hwrite encoding encoding'] at hq
    cases (parse_toRequest hq).symm.trans hparse
    exact .inl rfl

/-- A request is read as a command of the same kind. -/
theorem id_of_parse {c c' : Command} {q : Request} {encoding encoding' : CounterEncoding}
    (hq : c.toRequest encoding = .ok q) (hparse : parse q encoding' = .ok c') : c'.id = c.id := by
  rcases read_as hq hparse with rfl | ⟨hwrite, hwrite'⟩
  · exact c.id_norm
  · rw [hwrite, hwrite']

/-- **No counter above the maximum can be sent**, whatever the bytes of the
request. -/
theorem counter_le_of_parse {q : Request} {encoding : CounterEncoding} {c : Command}
    (h : parse q encoding = .ok c) : ∀ counter ∈ c.counter?, counter ≤ encoding.maximum := by
  obtain ⟨id, -, hfound⟩ := found_of_parse h
  cases id with
  | writeToSlot =>
    obtain ⟨counter, hvalue, rfl⟩ := Option.map_eq_some_iff.mp hfound
    rintro _ ⟨⟩
    exact CounterEncoding.value?_le (q.payload.length_field (by decide)) hvalue
  | sendOtpData =>
    obtain ⟨kind, -, rfl⟩ := Option.map_eq_some_iff.mp hfound
    exact nofun
  | _ =>
    cases hfound
    exact nofun

end Command

end OtpToken
