/-
  OtpToken.Proofs.Field
  ─────────────────────
  **FIELDS COME BACK AS THEY WERE WRITTEN.**

  `Decoder.Reads m bs a` says that a decoder takes exactly the bytes `bs`
  from the front of whatever is there and gives `a` for them.  Reading one
  after the other reads the concatenation (`Reads.bind`), so a layout is
  read back by reading back each of its fields.

  `Decoder.Total m n` says that a decoder is content with any `n` bytes; it
  composes in the same way.  `Decoder.Lasts m n` only says that it never runs
  out of bytes when there are `n`, and `Decoder.Spans m n` that it needs `n`
  bytes and looks at no more, so that these decide the result
  (`Spans.decidedBy`).

  On the other side, `layOut_of_fits` and `fits_of_layOut` say that a layout
  succeeds exactly when every field holds its contents, and what it gives.
-/
import OtpToken.Proofs.Text
import OtpToken.Field.Cursor
import OtpToken.Field.Draft

namespace OtpToken

/-! ## §1. Laying fields out. -/

namespace Field

/-- The contents of a field fit its width. -/
def Fits (f : Field) : Prop := f.bytes.length ≤ f.width

theorem length_padded {f : Field} (h : f.Fits) : f.padded.length = f.width :=
  Bytes.length_padTo h

theorem fits_byte (label : String) (v : UInt8) : (byte label v).Fits := Nat.le_refl 1

theorem fits_word64 (label : String) (v : UInt64) : (word64 label v).Fits :=
  Nat.le_of_eq (LittleEndian.length_encode 8 _)

theorem fits_word32 (label : String) (v : UInt32) : (word32 label v).Fits :=
  Nat.le_of_eq (LittleEndian.length_encode 4 _)

/-- The width of several fields one behind the other. -/
def totalWidth (fs : List Field) : Nat := fs.foldr (fun f n => f.width + n) 0

theorem totalWidth_append (fs gs : List Field) :
    totalWidth (fs ++ gs) = totalWidth fs + totalWidth gs := by
  induction fs with
  | nil => exact (Nat.zero_add _).symm
  | cons f fs ih =>
    show f.width + totalWidth (fs ++ gs) = f.width + totalWidth fs + totalWidth gs
    rw [ih, Nat.add_assoc]

/-- A counter fits unless it has more than eight digits where digits are
written. -/
theorem fits_counter_iff (encoding : CounterEncoding) (v : UInt64) :
    (counter encoding v).Fits ↔ v ≤ encoding.maximum := by
  cases encoding with
  | binary =>
    have hv := v.toNat_lt
    refine iff_of_true (fits_word64 "counter" v) ?_
    rw [UInt64.le_iff_toNat_le]
    show v.toNat ≤ 18446744073709551615
    omega
  | ascii =>
    rw [UInt64.le_iff_toNat_le]
    show (Utf8.encode (Decimal.text v.toNat)).length ≤ 8 ↔ v.toNat ≤ 99999999
    rw [Decimal.length_encode_text_le_iff _ _ (by decide)]
    show v.toNat < 100000000 ↔ v.toNat ≤ 99999999
    omega

end Field

/-- Every counter can be written, unless as digits. -/
theorem CounterEncoding.le_maximum_iff {encoding : CounterEncoding} {counter : UInt64} :
    counter ≤ encoding.maximum ↔ (encoding = .ascii → counter ≤ 99999999) := by
  cases encoding with
  | binary =>
    refine iff_of_true ?_ fun h => CounterEncoding.noConfusion h
    exact (Field.fits_counter_iff .binary counter).mp (Field.fits_word64 _ counter)
  | ascii => exact ⟨fun h _ => h, fun h => h rfl⟩

namespace Draft

variable {size : Nat}

theorem put_of_fits (d : Draft size) (f : Field) (hf : f.Fits) (hr : f.width ≤ d.room) :
    ∃ d', d.put f = .ok d' ∧ d'.written = d.written ++ f.padded := by
  unfold put
  have h1 : ¬ f.width < f.bytes.length := Nat.not_lt.mpr hf
  have h2 : ¬ d.room < f.width := Nat.not_lt.mpr hr
  rw [dif_neg h1, dif_neg h2]
  exact ⟨_, rfl, rfl⟩

theorem fits_of_put {d d' : Draft size} {f : Field} (h : d.put f = .ok d') :
    f.Fits ∧ d'.written = d.written ++ f.padded := by
  unfold put at h
  split at h
  · cases h
  · next hf =>
    split at h
    · cases h
    · cases h
      exact ⟨Nat.not_lt.mp hf, rfl⟩

theorem putAll_of_fits (d : Draft size) (fs : List Field) (hf : ∀ f ∈ fs, f.Fits)
    (hr : Field.totalWidth fs ≤ d.room) :
    ∃ d', d.putAll fs = .ok d' ∧ d'.written = d.written ++ fs.flatMap Field.padded := by
  induction fs generalizing d with
  | nil => exact ⟨d, rfl, (List.append_nil _).symm⟩
  | cons f fs ih =>
    have hff : f.Fits := hf f List.mem_cons_self
    have hsplit : Field.totalWidth (f :: fs) = f.width + Field.totalWidth fs := rfl
    rw [hsplit] at hr
    obtain ⟨d₁, hput, hw₁⟩ := d.put_of_fits f hff (by omega)
    have hroom : Field.totalWidth fs ≤ d₁.room := by
      unfold room at hr ⊢
      rw [hw₁, List.length_append, Field.length_padded hff]
      omega
    obtain ⟨d₂, hall, hw₂⟩ := ih d₁ (fun g hg => hf g (List.mem_cons_of_mem f hg)) hroom
    refine ⟨d₂, ?_, ?_⟩
    · rw [putAll, hput]
      exact hall
    · rw [hw₂, hw₁, List.flatMap_cons, List.append_assoc]

theorem fits_of_putAll {d d' : Draft size} {fs : List Field} (h : d.putAll fs = .ok d') :
    (∀ f ∈ fs, f.Fits) ∧ d'.written = d.written ++ fs.flatMap Field.padded := by
  induction fs generalizing d with
  | nil =>
    cases h
    exact ⟨by simp, (List.append_nil _).symm⟩
  | cons f fs ih =>
    rw [putAll] at h
    cases hput : d.put f with
    | error e => rw [hput] at h; cases h
    | ok d₁ =>
      rw [hput] at h
      obtain ⟨hf, hw₁⟩ := fits_of_put hput
      obtain ⟨hfs, hw₂⟩ := ih h
      refine ⟨List.forall_mem_cons.mpr ⟨hf, hfs⟩, ?_⟩
      rw [hw₂, hw₁, List.flatMap_cons, List.append_assoc]

end Draft

/-- **Fields that fit are laid out one behind the other.** -/
theorem layOut_of_fits (size : Nat) (fs : List Field) (hf : ∀ f ∈ fs, f.Fits)
    (hr : Field.totalWidth fs ≤ size) : ∃ block, layOut size fs = .ok block := by
  obtain ⟨d, hd, -⟩ := (Draft.empty size).putAll_of_fits fs hf hr
  exact ⟨d.finish, by rw [layOut, hd]; rfl⟩

/-- **A layout that succeeds holds its fields and then zeros, and no field
was too small.** -/
theorem fits_of_layOut {size : Nat} {fs : List Field} {block : Block size}
    (h : layOut size fs = .ok block) :
    (∀ f ∈ fs, f.Fits) ∧ ∃ zeros, block.bytes = fs.flatMap Field.padded ++ zeros := by
  rw [layOut] at h
  cases hd : (Draft.empty size).putAll fs with
  | error e => rw [hd] at h; cases h
  | ok d =>
    rw [hd] at h
    cases h
    obtain ⟨hf, hw⟩ := Draft.fits_of_putAll hd
    refine ⟨hf, List.replicate (size - d.written.length) 0, ?_⟩
    show Bytes.padTo size d.written = _
    rw [Bytes.padTo, hw]
    rfl

/-- A layout that has room succeeds exactly if every field holds its contents. -/
theorem exists_layOut_iff {size : Nat} {fs : List Field} (hr : Field.totalWidth fs ≤ size) :
    (∃ block, layOut size fs = .ok block) ↔ ∀ f ∈ fs, f.Fits := by
  constructor
  · rintro ⟨block, h⟩
    exact (fits_of_layOut h).1
  · intro h
    exact layOut_of_fits size fs h hr

/-! ## §2. Reading fields back. -/

/-- A credential up to its first zero byte. -/
def Secret.untilNul (s : Secret) : Secret := ⟨Bytes.untilNul s.bytes⟩

/-- Whether bytes were missing. -/
def DecodeError.isShort : DecodeError → Bool
  | outOfBytes .. => true
  | _ => false

namespace Decoder

variable {α β : Type}

/-- Behind a value the next decoder goes on where the first has stopped. -/
theorem bind_of_ok {m : Decoder α} {c c' : Cursor} {a : α} (h : m c = (.ok a, c'))
    (next : α → Decoder β) : (m >>= next) c = next a c' := by
  show Decoder.bind m next c = _
  rw [Decoder.bind, h]

/-- Behind a failure nothing is read. -/
theorem bind_of_error {m : Decoder α} {c : Cursor} {e : DecodeError} (h : (m c).1 = .error e)
    (next : α → Decoder β) : ((m >>= next) c).1 = .error e := by
  have hmc : m c = (.error e, (m c).2) := Prod.ext h rfl
  show (Decoder.bind m next c).1 = _
  rw [Decoder.bind, hmc]

/-- The decoder takes exactly these bytes and gives this value. -/
def Reads (m : Decoder α) (bs : Bytes) (a : α) : Prop :=
  ∀ offset rest, m ⟨offset, bs ++ rest⟩ = (.ok a, ⟨offset + bs.length, rest⟩)

theorem Reads.pure (a : α) : (Pure.pure a : Decoder α).Reads [] a := fun _ _ => rfl

/-- Reading one after the other reads what stands one after the other. -/
theorem Reads.bind {m : Decoder α} {next : α → Decoder β} {bs cs : Bytes} {a : α} {b : β}
    (hm : m.Reads bs a) (hn : (next a).Reads cs b) : (m >>= next).Reads (bs ++ cs) b := by
  intro offset rest
  rw [List.append_assoc, bind_of_ok (hm offset (cs ++ rest)), hn, List.length_append,
    Nat.add_assoc]

theorem Reads.decode {m : Decoder α} {bs : Bytes} {a : α} (h : m.Reads bs a) (rest : Bytes) :
    m.decode (bs ++ rest) = .ok a := by
  rw [Decoder.decode, Cursor.start, h]

theorem take_reads {width : Nat} {bs : Bytes} (h : bs.length = width) :
    (take width).Reads bs bs := by
  intro offset rest
  subst h
  rw [take, if_pos (by simp)]
  simp

theorem block_reads {n : Nat} (label : String) (b : Block n) :
    (block n).Reads (Field.padded ⟨label, n, b.bytes⟩) b := by
  intro offset rest
  have hp : Field.padded ⟨label, n, b.bytes⟩ = b.bytes := by
    rw [Field.padded, Bytes.padTo, b.length_bytes]
    simp
  have hl : n ≤ (b.bytes ++ rest).length := by simp
  rw [hp, block, dif_pos hl]
  have hb : (⟨(b.bytes ++ rest).take n, List.length_take_of_le hl⟩ : Block n) = b := by
    apply Block.ext_bytes
    exact List.take_left' b.length_bytes
  rw [hb, List.drop_left' b.length_bytes, b.length_bytes]

/-- Reading a value out of a field of one width. -/
theorem field_reads {width : Nat} {f : Field} (hf : f.Fits) (hw : f.width = width)
    (value : Bytes → α) :
    (do return value (← take width) : Decoder α).Reads f.padded (value f.padded) := by
  have h : (take width).Reads f.padded f.padded := take_reads (by rw [Field.length_padded hf, hw])
  have h' : (take width >>= fun bs => Pure.pure (value bs)).Reads (f.padded ++ [])
      (value f.padded) := h.bind (Reads.pure (value f.padded))
  rwa [List.append_nil] at h'

theorem padded_of_length_eq {f : Field} (h : f.bytes.length = f.width) : f.padded = f.bytes := by
  rw [Field.padded, Bytes.padTo, h]
  simp

theorem byte_reads (label : String) (v : UInt8) : byte.Reads (Field.byte label v).padded v :=
  field_reads (Field.fits_byte label v) rfl fun bs => bs.headD 0

theorem word32_reads (label : String) (v : UInt32) :
    word32.Reads (Field.word32 label v).padded v := by
  have h := field_reads (Field.fits_word32 label v) rfl
    fun bs => UInt32.ofNat (LittleEndian.decode bs)
  rw [padded_of_length_eq (LittleEndian.length_encode 4 _)] at h ⊢
  have hv : UInt32.ofNat (LittleEndian.decode (Field.word32 label v).bytes) = v := by
    show UInt32.ofNat (LittleEndian.decode (LittleEndian.encode 4 v.toNat)) = v
    rw [LittleEndian.decode_encode_of_lt 4 v.toNat_lt, UInt32.ofNat_toNat]
  rwa [hv] at h

theorem word64_reads (label : String) (v : UInt64) :
    word64.Reads (Field.word64 label v).padded v := by
  have h := field_reads (Field.fits_word64 label v) rfl
    fun bs => UInt64.ofNat (LittleEndian.decode bs)
  rw [padded_of_length_eq (LittleEndian.length_encode 8 _)] at h ⊢
  have hv : UInt64.ofNat (LittleEndian.decode (Field.word64 label v).bytes) = v := by
    show UInt64.ofNat (LittleEndian.decode (LittleEndian.encode 8 v.toNat)) = v
    rw [LittleEndian.decode_encode_of_lt 8 v.toNat_lt, UInt64.ofNat_toNat]
  rwa [hv] at h

theorem text_reads {label : String} {width : Nat} {s : String}
    (hf : (Field.text label width s).Fits) :
    (text width).Reads (Field.text label width s).padded (Utf8.untilNul s) := by
  have h := field_reads hf rfl fun bs => Utf8.decodeLossy (Bytes.untilNul bs)
  have hv : Bytes.untilNul (Field.text label width s).padded = Bytes.untilNul (Utf8.encode s) :=
    Bytes.untilNul_padTo width _
  rw [hv, Utf8.decodeLossy_untilNul] at h
  exact h

theorem secret_reads {label : String} {width : Nat} {s : Secret}
    (hf : (Field.secret label width s).Fits) :
    (secret width).Reads (Field.secret label width s).padded s.untilNul := by
  have h := field_reads hf rfl fun bs => (⟨Bytes.untilNul bs⟩ : Secret)
  have hv : Bytes.untilNul (Field.secret label width s).padded = Bytes.untilNul s.bytes :=
    Bytes.untilNul_padTo width _
  rw [hv] at h
  exact h

/-- The digits of a numeral do not start with a plus sign, so nothing is
passed over in front of them. -/
theorem asciiCounter?_padTo (n : Nat) :
    asciiCounter? (Bytes.padTo 8 (Utf8.encode (Decimal.text n))) = some (UInt64.ofNat n) := by
  have hread := Decimal.ofAscii?_encode_text n
  have hdigit := fun b => Decimal.toNat_of_mem_encode_text (n := n) (b := b)
  unfold asciiCounter?
  rw [Bytes.untilNul_padTo, Decimal.untilNul_encode_text]
  generalize Utf8.encode (Decimal.text n) = bs at hread hdigit
  split
  · cases hread
  · have := hdigit 0x2B List.mem_cons_self
    simp at this
  · rw [hread]
    rfl

theorem counter_reads {encoding : CounterEncoding} {v : UInt64}
    (hf : (Field.counter encoding v).Fits) :
    (counter encoding).Reads (Field.counter encoding v).padded v := by
  cases encoding with
  | binary => exact word64_reads "counter" v
  | ascii =>
    have htake : (take 8).Reads (Field.counter .ascii v).padded (Field.counter .ascii v).padded :=
      take_reads (Field.length_padded hf)
    have hv : asciiCounter? (Field.counter .ascii v).padded = some v := by
      show asciiCounter? (Bytes.padTo 8 (Utf8.encode (Decimal.text v.toNat))) = some v
      rw [asciiCounter?_padTo, UInt64.ofNat_toNat]
    rw [← List.append_nil (Field.counter .ascii v).padded]
    refine Reads.bind htake ?_
    rw [hv]
    exact Reads.pure v

/-- A counter in an ASCII field has no more digits than the field has bytes. -/
theorem asciiCounter?_lt {field : Bytes} {n : UInt64} (h : asciiCounter? field = some n) :
    n.toNat < Nat.pow 10 field.length := by
  have hone : 0 < Nat.pow 10 field.length := Nat.pow_pos (by decide)
  have hlen : (Bytes.untilNul field).length ≤ field.length := Bytes.length_untilNul_le _
  have hdigits : ∀ digits : Bytes, digits.length ≤ field.length →
      (Decimal.ofAscii? digits).map UInt64.ofNat = some n → n.toNat < Nat.pow 10 field.length := by
    intro digits hle hn
    obtain ⟨k, hk, rfl⟩ := Option.map_eq_some_iff.mp hn
    calc (UInt64.ofNat k).toNat ≤ k := Nat.mod_le _ _
      _ < Nat.pow 10 digits.length := (Decimal.ofAscii?_eq_some_iff.mp hk).2.lt
      _ ≤ Nat.pow 10 field.length := Nat.pow_le_pow_right (by decide) hle
  unfold asciiCounter? at h
  split at h
  · cases h
    exact hone
  · next digits hsign =>
    -- the sign takes one byte
    rw [hsign] at hlen
    exact hdigits digits (Nat.le_of_succ_le hlen) h
  · exact hdigits _ hlen h

/-- Eight bytes hold no more than eight digits. -/
theorem asciiCounter?_le {field : Bytes} {n : UInt64} (hlength : field.length = 8)
    (h : asciiCounter? field = some n) : n ≤ 99999999 := by
  have hlt := asciiCounter?_lt h
  rw [hlength] at hlt
  rw [UInt64.le_iff_toNat_le]
  exact Nat.le_of_lt_succ hlt

/-! ## §3. Reading anything at all. -/

/-- The decoder takes `n` bytes, whatever they are, and never fails on them. -/
def Total (m : Decoder α) (n : Nat) : Prop :=
  ∀ c : Cursor, n ≤ c.rest.length → ∃ a, m c = (.ok a, ⟨c.offset + n, c.rest.drop n⟩)

theorem Total.pure (a : α) : (Pure.pure a : Decoder α).Total 0 := fun _ _ => ⟨a, rfl⟩

theorem Total.bind {m : Decoder α} {next : α → Decoder β} {n k : Nat} (hm : m.Total n)
    (hn : ∀ a, (next a).Total k) : (m >>= next).Total (n + k) := by
  intro c hc
  obtain ⟨a, ha⟩ := hm c (by omega)
  obtain ⟨b, hb⟩ := hn a ⟨c.offset + n, c.rest.drop n⟩ (by
    simp only [List.length_drop]
    omega)
  refine ⟨b, ?_⟩
  rw [bind_of_ok ha, hb, List.drop_drop, Nat.add_assoc]

/-- On a payload that is long enough the decoder gives a value. -/
theorem Total.decode {m : Decoder α} {n : Nat} (h : m.Total n) {bs : Bytes}
    (hn : n ≤ bs.length) : ∃ a, m.decode bs = .ok a := by
  obtain ⟨a, ha⟩ := h (.start bs) hn
  exact ⟨a, by rw [Decoder.decode, ha]⟩

theorem take_total (width : Nat) : (take width).Total width := by
  intro c hc
  exact ⟨c.rest.take width, by rw [take, if_pos hc]⟩

theorem block_total (n : Nat) : (block n).Total n := by
  intro c hc
  exact ⟨⟨c.rest.take n, List.length_take_of_le hc⟩, by rw [block, dif_pos hc]⟩

theorem byte_total : byte.Total 1 := (take_total 1).bind fun _ => .pure _

theorem word32_total : word32.Total 4 := (take_total 4).bind fun _ => .pure _

theorem text_total (width : Nat) : (text width).Total width :=
  (take_total width).bind fun _ => .pure _

/-! ## §4. Payloads that are long enough. -/

/-- The decoder does not run out of bytes as long as `n` are left, and takes no
more than these. -/
def Lasts (m : Decoder α) (n : Nat) : Prop :=
  ∀ c : Cursor, n ≤ c.rest.length →
    (∀ a c', m c = (.ok a, c') → c.rest.length ≤ c'.rest.length + n)
      ∧ ∀ e c', m c = (.error e, c') → e.isShort = false

theorem Total.lasts {m : Decoder α} {n : Nat} (h : m.Total n) : m.Lasts n := by
  intro c hc
  obtain ⟨a, ha⟩ := h c hc
  rw [ha]
  refine ⟨?_, ?_⟩
  · rintro _ _ ⟨⟩
    simp only [List.length_drop]
    omega
  · rintro _ _ ⟨⟩

theorem Lasts.pure (a : α) : (Pure.pure a : Decoder α).Lasts 0 := (Total.pure a).lasts

theorem Lasts.fail {e : DecodeError} (h : e.isShort = false) : (fail e : Decoder α).Lasts 0 := by
  intro c _
  refine ⟨?_, ?_⟩
  · rintro _ _ ⟨⟩
  · rintro _ _ ⟨⟩
    exact h

theorem Lasts.bind {m : Decoder α} {next : α → Decoder β} {n k : Nat} (hm : m.Lasts n)
    (hn : ∀ a, (next a).Lasts k) : (m >>= next).Lasts (n + k) := by
  intro c hc
  obtain ⟨hok, herror⟩ := hm c (by omega)
  show (∀ b c', Decoder.bind m next c = _ → _) ∧ ∀ e c', Decoder.bind m next c = _ → _
  unfold Decoder.bind
  cases hmc : m c with
  | mk result c₁ =>
    cases result with
    | error e =>
      refine ⟨?_, ?_⟩
      · rintro _ _ ⟨⟩
      · rintro _ _ ⟨⟩
        exact herror e c₁ hmc
    | ok a =>
      have hleft := hok a c₁ hmc
      obtain ⟨hok', herror'⟩ := hn a c₁ (by omega)
      refine ⟨fun b c' hb => ?_, herror'⟩
      have := hok' b c' hb
      omega

theorem Lasts.decode {m : Decoder α} {n : Nat} (h : m.Lasts n) {bs : Bytes}
    (hn : n ≤ bs.length) {e : DecodeError} (he : m.decode bs = .error e) : e.isShort = false := by
  refine (h (.start bs) hn).2 e (m (.start bs)).2 ?_
  rw [← he]
  rfl

/-! ## §5. What a decoder looks at. -/

/-- What is made of a value in the end. -/
theorem map_result (m : Decoder α) (f : α → β) (c : Cursor) :
    ((m >>= fun a => Pure.pure (f a)) c).1 = (m c).1.map f := by
  cases hmc : m c with
  | mk result c' =>
    cases result with
    | error e => exact bind_of_error (congrArg Prod.fst hmc) _
    | ok a => exact congrArg Prod.fst (bind_of_ok hmc _)

/-- **The decoder looks at `n` bytes**: it runs out of bytes where there are fewer, and only
there, and what stands behind them makes no difference. -/
structure Spans (m : Decoder α) (n : Nat) : Prop where
  lasts : m.Lasts n
  needs : ∀ c : Cursor, c.rest.length < n → ∃ e, (m c).1 = .error e ∧ e.isShort = true
  leading : ∀ c : Cursor, (m c).1 = (m ⟨c.offset, c.rest.take n⟩).1

theorem Spans.pure (a : α) : (Pure.pure a : Decoder α).Spans 0 where
  lasts := .pure a
  needs _ h := absurd h (Nat.not_lt_zero _)
  leading _ := rfl

theorem Spans.fail {e : DecodeError} (h : e.isShort = false) : (fail e : Decoder α).Spans 0 where
  lasts := .fail h
  needs _ h := absurd h (Nat.not_lt_zero _)
  leading _ := rfl

/-- Behind a decoder that never fails on its bytes, the next one looks at those that
follow. -/
theorem Spans.bind {m : Decoder α} {next : α → Decoder β} {n k : Nat} (hm : m.Spans n)
    (htotal : m.Total n) (hn : ∀ a, (next a).Spans k) : (m >>= next).Spans (n + k) where
  lasts := hm.lasts.bind fun a => (hn a).lasts
  needs c hc := by
    by_cases hfirst : n ≤ c.rest.length
    · obtain ⟨a, ha⟩ := htotal c hfirst
      rw [bind_of_ok ha]
      refine (hn a).needs _ ?_
      simp only [List.length_drop]
      omega
    · obtain ⟨e, he, hshort⟩ := hm.needs c (Nat.not_le.mp hfirst)
      exact ⟨e, bind_of_error he next, hshort⟩
  leading c := by
    by_cases hall : n + k ≤ c.rest.length
    · have hlength : (c.rest.take (n + k)).length = n + k := List.length_take_of_le hall
      have htake : (c.rest.take (n + k)).take n = c.rest.take n := by
        rw [List.take_take, Nat.min_eq_left (Nat.le_add_right n k)]
      have hdrop : (c.rest.take (n + k)).drop n = (c.rest.drop n).take k := by
        rw [List.drop_take, Nat.add_sub_cancel_left]
      obtain ⟨a, ha⟩ := htotal c (Nat.le_of_add_right_le hall)
      obtain ⟨a', ha'⟩ := htotal ⟨c.offset, c.rest.take (n + k)⟩
        (Nat.le_trans (Nat.le_add_right n k) (Nat.le_of_eq hlength.symm))
      -- the first decoder finds the same bytes in both
      have hsame : (m c).1 = (m ⟨c.offset, c.rest.take (n + k)⟩).1 := by
        rw [hm.leading c, hm.leading ⟨c.offset, c.rest.take (n + k)⟩, htake]
      rw [ha, ha'] at hsame
      cases hsame
      rw [bind_of_ok ha, bind_of_ok ha', (hn a).leading, hdrop]
    · rw [List.take_of_length_le (Nat.le_of_lt (Nat.not_le.mp hall))]

theorem Spans.map {m : Decoder α} {n : Nat} (h : m.Spans n) (f : α → β) :
    (m >>= fun a => Pure.pure (f a)).Spans n where
  lasts := h.lasts.bind fun a => .pure (f a)
  needs c hc := by
    obtain ⟨e, he, hshort⟩ := h.needs c hc
    exact ⟨e, bind_of_error he _, hshort⟩
  leading c := by rw [map_result, map_result, h.leading c]

theorem take_spans (width : Nat) : (take width).Spans width where
  lasts := (take_total width).lasts
  needs c hc := by
    refine ⟨.outOfBytes width c.offset (c.offset + c.rest.length), ?_, rfl⟩
    rw [take, if_neg (Nat.not_le.mpr hc)]
  leading c := by
    by_cases hc : width ≤ c.rest.length
    · have hlength : (c.rest.take width).length = width := List.length_take_of_le hc
      rw [take, take, if_pos hc, if_pos (Nat.le_of_eq hlength.symm), List.take_take, Nat.min_self]
    · rw [List.take_of_length_le (Nat.le_of_lt (Nat.not_le.mp hc))]

theorem block_spans (n : Nat) : (block n).Spans n where
  lasts := (block_total n).lasts
  needs c hc := by
    refine ⟨.outOfBytes n c.offset (c.offset + c.rest.length), ?_, rfl⟩
    rw [block, dif_neg (Nat.not_le.mpr hc)]
  leading c := by
    by_cases hc : n ≤ c.rest.length
    · have hlength : (c.rest.take n).length = n := List.length_take_of_le hc
      rw [block, block, dif_pos hc, dif_pos (Nat.le_of_eq hlength.symm)]
      refine congrArg Except.ok (Block.ext_bytes ?_)
      show c.rest.take n = (c.rest.take n).take n
      rw [List.take_take, Nat.min_self]
    · rw [List.take_of_length_le (Nat.le_of_lt (Nat.not_le.mp hc))]

theorem byte_spans : byte.Spans 1 := (take_spans 1).map _

theorem word32_spans : word32.Spans 4 := (take_spans 4).map _

theorem word64_spans : word64.Spans 8 := (take_spans 8).map _

theorem text_spans (width : Nat) : (text width).Spans width := (take_spans width).map _

theorem counter_spans (encoding : CounterEncoding) : (counter encoding).Spans 8 := by
  cases encoding with
  | binary => exact word64_spans
  | ascii =>
    refine (take_spans 8).bind (take_total 8) (k := 0) fun field => ?_
    split
    · exact .pure _
    · exact .fail rfl

/-- The result is that of the first `n` bytes, and bytes are missing if there are fewer. -/
def DecidedBy (m : Decoder α) (n : Nat) : Prop :=
  ∀ bs : Bytes, ((∃ e, m.decode bs = .error e ∧ e.isShort = true) ↔ bs.length < n)
    ∧ m.decode bs = m.decode (bs.take n)

/-- **Whatever the length of a payload, a decoder that looks at `n` bytes needs them all and
no more.** -/
theorem Spans.decidedBy {m : Decoder α} {n : Nat} (h : m.Spans n) : m.DecidedBy n := by
  intro bs
  refine ⟨⟨?_, fun hlt => h.needs (.start bs) hlt⟩, h.leading (.start bs)⟩
  rintro ⟨e, he, hshort⟩
  refine Nat.not_le.mp fun hlong => ?_
  have hnot := h.lasts.decode hlong he
  rw [hshort] at hnot
  cases hnot

end Decoder

end OtpToken
