/-
  OtpToken.Proofs.Token.Counter
  ─────────────────────────────
  **WHAT MOVES THE COUNTER OF AN HOTP SLOT.**

  A slot is rewritten by a write, an erasure or a reset that was done.  Between
  two of these only one thing can happen to it: a code is given, its counter
  was below the maximum, and it moves on by one (`Dialogue.hear_hotp`).  A
  report can carry any bytes, but no counter above the maximum can be read from
  it, so no counter ever gets there (`Dialogue.bounded_run`).
-/
import OtpToken.Proofs.Command.Domain
import OtpToken.Proofs.Token.Dialogue
import OtpToken.Proofs.Token.Stored

namespace OtpToken

/-! ## §1. Commands for a slot. -/

namespace Command

/-- The commands that rewrite an HOTP slot. -/
def rewrites (index : UInt8) : Command → Bool
  | writeToSlot _ number _ _ _ | eraseSlot number _ =>
      CodeKind.ofSlotNumber? number = some (.hotp, index)
  | factoryReset _ => true
  | _ => false

/-- The commands for a code of an HOTP slot. -/
def counts (index : UInt8) : Command → Bool
  | getCode number .. => CodeKind.ofSlotNumber? number = some (.hotp, index)
  | _ => false

theorem counts_norm (index : UInt8) (c : Command) : c.norm.counts index = c.counts index := by
  cases c with
  | sendOtpData adminTemp kind chunk data => cases kind <;> rfl
  | _ => rfl

theorem counts_of_write {index : UInt8} {c : Command} (h : c.id = .writeToSlot) :
    c.counts index = false := by
  cases c with
  | getCode number challenge lastTime lastInterval temp => cases h
  | _ => rfl

/-- **A request asks for a code of an HOTP slot only if it was made for
that**, also where host and token do not agree on how counters are written. -/
theorem counts_of_parse {index : UInt8} {c c' : Command} {q : Request}
    {encoding encoding' : CounterEncoding} (hq : c.toRequest encoding = .ok q)
    (hparse : parse q encoding' = .ok c') : c'.counts index = c.counts index := by
  rcases read_as hq hparse with rfl | ⟨hwrite, hwrite'⟩
  · exact counts_norm index c
  · rw [counts_of_write hwrite, counts_of_write hwrite']

end Command

/-! ## §2. One command. -/

/-- A counter below some maximum moves on by one and does not start over. -/
theorem CodeSlot.toNat_counted {slot : CodeSlot} {maximum : UInt64}
    (h : slot.details.counter < maximum) :
    slot.counted.details.counter.toNat = slot.details.counter.toNat + 1 := by
  have hlt : slot.details.counter.toNat < maximum.toNat := UInt64.lt_iff_toNat_lt.mp h
  have hmax : maximum.toNat ≤ 18446744073709551615 := Nat.le_of_lt_succ maximum.toNat_lt
  have hroom : slot.details.counter.toNat + 1 < UInt64.size := by
    show _ < 18446744073709551616
    omega
  show (slot.details.counter + 1).toNat = _
  rw [UInt64.toNat_add]
  exact Nat.mod_eq_of_lt hroom

namespace Token

/-- The HOTP slot of an index, if it is programmed. -/
def hotp? (t : Token) (index : UInt8) : Option CodeSlot := t.store.codes.at? .hotp index

/-- No counter is above the maximum. -/
def Bounded (t : Token) : Prop :=
  ∀ index slot, t.hotp? index = some slot → slot.details.counter ≤ t.encoding.maximum

theorem encoding_eq {t t' : Token} (h : t'.config = t.config) : t'.encoding = t.encoding := by
  unfold encoding capabilities
  rw [h]

/-- The ways of an HOTP slot under a command. -/
inductive HotpStep (t : Token) (c : Command) (index : UInt8) : Status → Token → Prop
  | same {status : Status} {t' : Token} (hsame : t'.hotp? index = t.hotp? index) :
      HotpStep t c index status t'
  /-- A code was given, and the counter has moved on by one. -/
  | counted {t' : Token} {slot : CodeSlot} (hcounts : c.counts index = true)
      (hslot : t.hotp? index = some slot) (hroom : slot.details.counter < t.encoding.maximum)
      (hnext : t'.hotp? index = some slot.counted) : HotpStep t c index .ok t'
  /-- The slot is empty, or its counter is the one in the command. -/
  | rewritten {t' : Token} (hrewrites : c.rewrites index = true)
      (hnext : ∀ slot, t'.hotp? index = some slot → slot.details.counter ∈ c.counter?) :
      HotpStep t c index .ok t'

variable {t : Token} {c : Command} {r : Answer × Token}

/-- **What a command does to an HOTP slot.** -/
theorem Effect.hotpStep (h : t.Effect c r) (index : UInt8) :
    t.HotpStep c index r.1.status r.2 := by
  cases h with
  | @written _ _ number place kind _ _ _ _ _ _ hnumber _ _ hprevious _ =>
    rcases t.store.codes.at?_set_or kind .hotp place index with ⟨rfl, rfl⟩ | hsame
    · refine .rewritten (decide_eq_true hnumber) fun slot hslot => ?_
      have hholds : (SlotFamily.code .hotp).holds index = true := by
        rw [← CodeTable.isSome_get?_iff, hprevious]
        rfl
      cases (CodeTable.at?_set_self hholds).symm.trans hslot
      rfl
    · exact .same (hsame _)
  | @erased _ number place kind _ hnumber =>
    rcases t.store.codes.at?_set_or kind .hotp place index with ⟨rfl, rfl⟩ | hsame
    · refine .rewritten (decide_eq_true hnumber) fun slot hslot => ?_
      have hset : (t.store.codes.set .hotp index none).at? .hotp index = some slot := hslot
      rcases CodeTable.of_at?_set hset with ⟨-, -, hnone⟩ | ⟨hother, -⟩
      · cases hnone
      · exact absurd rfl (hother rfl)
    · exact .same (hsame _)
  | @counted number place _ _ _ _ slot _ _ _ hnumber hslot hmax _ _ =>
    rcases t.store.codes.at?_set_or .hotp .hotp place index with ⟨-, rfl⟩ | hsame
    · have hat : t.hotp? index = some slot := congrArg Option.join hslot
      exact .counted (decide_eq_true hnumber) hat hmax
        (CodeTable.at?_set_self (CodeTable.holds_of_at? hat))
    · exact .same (hsame _)
  | reset _ =>
    refine .rewritten rfl fun slot hslot => ?_
    cases CodeTable.at?_empty.symm.trans hslot
  | keyRenewed _ =>
    -- clearing the Password Safe keeps the code slots
    refine .same ?_
    show (ite _ _ _ : Store).codes.at? .hotp index = _
    split
    · rfl
    · rfl
  | _ => exact .same rfl

/-- **A command whose counter is at most the maximum leaves all counters at
most the maximum.** -/
theorem Effect.bounded (h : t.Effect c r) (hbounded : t.Bounded)
    (hcounter : ∀ counter ∈ c.counter?, counter ≤ t.encoding.maximum) : r.2.Bounded := by
  intro index slot hslot
  rw [encoding_eq h.config_eq]
  have hstep := h.hotpStep index
  generalize r.1.status = status at hstep
  cases hstep with
  | same hsame => exact hbounded index slot (hsame.symm.trans hslot)
  | counted _ hprevious hroom hnext =>
    cases hnext.symm.trans hslot
    rw [UInt64.le_iff_toNat_le, CodeSlot.toNat_counted hroom]
    exact UInt64.lt_iff_toNat_lt.mp hroom
  | rewritten _ hnext => exact hcounter _ (hnext slot hslot)

end Token

/-! ## §3. Dialogues. -/

/-- A command was done that rewrites an HOTP slot. -/
def Exchange.rewrote (index : UInt8) (x : Exchange) : Bool :=
  x.status.isOk && x.command?.any (Command.rewrites index)

namespace Dialogue

variable {d : Dialogue} {index : UInt8}

/-- How many times an HOTP slot was rewritten. -/
def rewritten (d : Dialogue) (index : UInt8) : Nat := d.past.countP (Exchange.rewrote index)

theorem rewritten_le_hear (d : Dialogue) (report : Report) (index : UInt8) :
    d.rewritten index ≤ (d.hear report).rewritten index := by
  unfold hear
  split
  · exact Nat.le_refl _
  · exact (List.sublist_cons_self _ _).countP_le

theorem rewritten_le_run (d : Dialogue) (reports : List Report) (index : UInt8) :
    d.rewritten index ≤ (d.run reports).rewritten index :=
  run_induction (I := fun d' => d.rewritten index ≤ d'.rewritten index) (Nat.le_refl _)
    (fun d' report h => Nat.le_trans h (d'.rewritten_le_hear report index)) reports

/-- The report carries no command for a code of the slot. -/
def Idle (encoding : CounterEncoding) (index : UInt8) (report : Report) : Prop :=
  ∀ c, Command.ofReport? encoding report = some c → c.counts index = false

/-- **A report that does not rewrite an HOTP slot leaves it as it is**, unless
a code of it is given, and then its counter moves on by one. -/
theorem hear_hotp (hplug : d.token.pluggedIn = true) (report : Report)
    (hkept : (d.hear report).rewritten index = d.rewritten index) :
    (d.hear report).token.hotp? index = d.token.hotp? index
      ∨ ¬ Idle d.token.encoding index report ∧ ∃ slot, d.token.hotp? index = some slot
          ∧ slot.details.counter < d.token.encoding.maximum
          ∧ (d.hear report).token.hotp? index = some slot.counted := by
  obtain ⟨reply, -, hpast, ⟨-, -, hsame⟩ | ⟨c, answer, hc, heffect, hstatus⟩⟩ :=
    hear_cases hplug report
  · rw [hsame]
    exact .inl rfl
  · have hstep := heffect.hotpStep index
    dsimp only at hstep
    generalize answer.status = status at hstatus hstep
    cases hstep with
    | same hsame => exact .inl hsame
    | counted hcounts hslot hroom hnext =>
      refine .inr ⟨fun hidle => ?_, _, hslot, hroom, hnext⟩
      cases hcounts.symm.trans (hidle c hc)
    | rewritten hrewrites hnext =>
      -- one more, against what was assumed
      have hrewrote : Exchange.rewrote index (.seen d.token.encoding report reply) = true := by
        unfold Exchange.rewrote
        rw [hstatus, hc]
        exact hrewrites
      unfold rewritten at hkept
      rw [hpast, List.countP_cons_of_pos hrewrote] at hkept
      omega

/-- **Reports without a command for a code leave the slot as it is**, unless
they rewrite it. -/
theorem run_hotp {config : TokenConfig} (hfixed : d.Fixed config) (reports : List Report)
    (hidle : ∀ report ∈ reports, Idle d.token.encoding index report)
    (hkept : (d.run reports).rewritten index = d.rewritten index) :
    (d.run reports).token.hotp? index = d.token.hotp? index := by
  induction reports generalizing d with
  | nil => rfl
  | cons report reports ih =>
    have hrun : d.run (report :: reports) = (d.hear report).run reports := rfl
    rw [hrun] at hkept ⊢
    -- what is the same at both ends was the same in between
    have hup := d.rewritten_le_hear report index
    have hup' := (d.hear report).rewritten_le_run reports index
    have hfirst : (d.hear report).rewritten index = d.rewritten index := by omega
    have hrest : ((d.hear report).run reports).rewritten index
        = (d.hear report).rewritten index := by omega
    have hnext : (d.hear report).Fixed config := hfixed.hear report
    have hencoding : (d.hear report).token.encoding = d.token.encoding :=
      Token.encoding_eq (hnext.1.trans hfixed.1.symm)
    have hsame : ((d.hear report).run reports).token.hotp? index
        = (d.hear report).token.hotp? index := by
      refine ih hnext (fun r hr => ?_) hrest
      rw [hencoding]
      exact hidle r (List.mem_cons_of_mem report hr)
    rcases hear_hotp hfixed.2 report hfirst with hheard | ⟨hbusy, -⟩
    · exact hsame.trans hheard
    · exact absurd (hidle report List.mem_cons_self) hbusy

/-- **No counter ever gets above the maximum.** -/
theorem bounded_run (config : TokenConfig) (reports : List Report) :
    ((start config).run reports).token.Bounded := by
  refine start_induction (I := fun d => d.token.Bounded) ?_ ?_ reports
  · intro index slot hslot
    cases CodeTable.at?_empty.symm.trans hslot
  · intro reports report hbounded
    obtain ⟨-, hplug⟩ := fixed_run config reports
    generalize (start config).run reports = d at hbounded hplug
    obtain ⟨reply, -, -, ⟨-, -, hsame⟩ | ⟨c, answer, hc, heffect, -⟩⟩ := hear_cases hplug report
    · rw [hsame]
      exact hbounded
    · obtain ⟨q, -, hparse⟩ := Command.of_ofReport? hc
      exact heffect.bounded hbounded (Command.counter_le_of_parse hparse)

end Dialogue

end OtpToken
