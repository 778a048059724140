/-
  OtpToken.Proofs.Client.Counter
  ──────────────────────────────
  **NO COUNTER IS USED TWICE.**

  A journal is a host and a dialogue with its token, and the value of every
  call that was done.  The line between the two loses requests and responses.
  Until an HOTP slot is rewritten, only a call for a code of it moves its
  counter, and by one, also if the code is lost; the codes that do arrive are
  those of counters that go up (`counters_over_runs`).

  Nothing is assumed of the host: it may take the token to be capable of
  anything.
-/
import OtpToken.Proofs.Client.Heard
import OtpToken.Proofs.Client.History
import OtpToken.Proofs.Client.Slots
import OtpToken.Proofs.Token.Counter

namespace OtpToken

variable {index : UInt8}

/-! ## §1. Calls that ask for no code of the slot. -/

theorem Command.counts_of_spares {x : Command} (h : x.id.spares = true) :
    x.counts index = false := by
  cases x with
  | getCode number challenge lastTime lastInterval temp => cases h
  | _ => rfl

/-- **Only a call for a code of the slot asks for a code of it.** -/
theorem Call.Asks.counts {call : Call} {c : Client} {cs : List Command} {last x : Command}
    (h : call.Asks c cs last) (hcounts : call.counts .hotp index = false)
    (hx : x ∈ cs ∨ x = last) : x.counts index = false := by
  rcases hx with hx | rfl
  · exact Command.counts_of_spares (h.opening x hx)
  · cases call with
    | setTime reset time =>
      obtain ⟨-, rfl⟩ := h
      rfl
    | factoryReset pin =>
      obtain ⟨-, rfl⟩ := h
      rfl
    | eraseSlot kind i temp =>
      obtain ⟨-, number, -, rfl⟩ := h
      rfl
    | writeHotp i data counter temp =>
      obtain ⟨number, secret, -, -, -, rfl⟩ := h
      rfl
    | writeTotp i data period temp =>
      obtain ⟨number, secret, -, -, -, rfl⟩ := h
      rfl
    -- a code, but of another slot
    | hotpCode i temp =>
      obtain ⟨-, number, hnumber, rfl⟩ := h
      have hother : i ≠ index := fun e => of_decide_eq_false hcounts ⟨rfl, e⟩
      refine decide_eq_false fun hslot => ?_
      cases (CodeKind.ofSlotNumber?_of_slotNumber? hnumber).symm.trans hslot
      exact hother rfl
    | totpCode i challenge lastTime lastInterval temp =>
      obtain ⟨-, number, hnumber, rfl⟩ := h
      refine decide_eq_false fun hslot => ?_
      cases (CodeKind.ofSlotNumber?_of_slotNumber? hnumber).symm.trans hslot
    | _ => exact Command.counts_of_spares (h x List.mem_cons_self)

/-- A request that was made for no code of the slot carries no command for
one. -/
theorem Dialogue.idle_of_request {x : Command} {q : Request} {encoding encoding' : CounterEncoding}
    (hq : x.toRequest encoding = .ok q) (hcounts : x.counts index = false) :
    Idle encoding' index q.toReport := by
  intro c hc
  obtain ⟨q', hq', hparse⟩ := Command.of_ofReport? hc
  cases (Request.ofReport_toReport q).symm.trans hq'
  rw [Command.counts_of_parse hq hparse]
  exact hcounts

/-! ## §2. One call. -/

/-- The ways of an HOTP slot under a call: the result, and the token before and
after it. -/
inductive HotpCall (index : UInt8) (call : Call) (t t' : Token) : Except Error Value → Prop
  /-- No code of the slot was given. -/
  | kept {result : Except Error Value} (hsame : t'.hotp? index = t.hotp? index)
      (hresult : call.counts .hotp index = true → t' = t ∧ ∃ why, result = .error why) :
      HotpCall index call t t' result
  /-- A code was given, and its counter is used up even if the code is
  lost. -/
  | given {result : Except Error Value} {slot : CodeSlot} {code : String}
      (hcounts : call.counts .hotp index = true) (hslot : t.hotp? index = some slot)
      (hroom : slot.details.counter < t.encoding.maximum)
      (hcode : counterCode slot.secret.bytes slot.details.counter slot.details.flags.digits
        = .ok code)
      (hnext : t'.hotp? index = some slot.counted)
      (hresult : result = .ok (.text code) ∨ ∃ why, result = .error why) :
      HotpCall index call t t' result

section HotpCode

variable {t t' : Token} {c : Client} {number : UInt8} {temp : Secret}

/-- A code that is refused changes nothing at all. -/
theorem Token.eq_of_getCode_error {why : Error}
    (h : t.ask (.getCode number 0 0 0 temp) = (.error why, t')) : t' = t := by
  obtain ⟨status, heffect⟩ := effect_of_ask_error h
  cases heffect with
  | barred _ => rfl
  | refused _ _ _ => rfl
  | wrongPin hcheck _ _ => cases hcheck
  | failed hcheck _ _ _ _ => cases hcheck

/-- The token was asked for a code; the host was told the answer, or that the
line has failed. -/
theorem HotpCall.of_ask {result : Except Error Value}
    (hnumber : CodeKind.hotp.slotNumber? index = some number)
    (hresult : result
          = (c.finish (Call.hotpCode index temp).operation (t.ask (.getCode number 0 0 0 temp)).1).1
        ∨ ∃ why, result = .error why) :
    HotpCall index (.hotpCode index temp) t (t.ask (.getCode number 0 0 0 temp)).2 result := by
  cases hask : t.ask (.getCode number 0 0 0 temp) with
  | mk answer t' =>
    rw [hask] at hresult
    cases answer with
    | error why =>
      obtain rfl := Token.eq_of_getCode_error hask
      refine .kept rfl fun _ => ⟨rfl, ?_⟩
      rcases hresult with hresult | hresult
      · exact ⟨why, hresult⟩
      · exact hresult
    | ok payload =>
      obtain ⟨-, slot, code, hslot, hmax, hcode, hpayload, hcodes⟩ :=
        (Token.effect_of_ask_ok hask).of_getCode_hotp_ok
          (CodeKind.ofSlotNumber?_of_slotNumber? hnumber)
      have hat : t.hotp? index = some slot := congrArg Option.join hslot
      have hread : (Call.hotpCode index temp).operation.conclude c payload
          = (.ok (.text (formatCode code slot.details.flags.digits)),
              { c with known := c.known.withHotpUse index }) :=
        Operation.conclude_map Value.text
          (Operation.conclude_code hpayload .hotp index 0 0 0 temp)
      have hcounter : counterCode slot.secret.bytes slot.details.counter slot.details.flags.digits
          = .ok (formatCode code slot.details.flags.digits) := by
        unfold counterCode
        rw [hcode]
        rfl
      have hnext : t'.hotp? index = some slot.counted := by
        unfold Token.hotp?
        rw [hcodes]
        exact CodeTable.at?_set_self (CodeTable.holds_of_at? hat)
      refine .given (decide_eq_true ⟨rfl, rfl⟩) hat hmax hcounter hnext ?_
      rcases hresult with hresult | hresult
      · rw [Client.finish_of_read hread] at hresult
        exact .inl hresult
      · exact .inr hresult

/-- **A call for a code over a line with losses.** -/
theorem HotpCall.of_hotpCode (t : Token) (c : Client) (temp : Secret)
    (losses : List (Option Loss)) :
    HotpCall index (.hotpCode index temp) t
      ((Call.hotpCode index temp).perform Token.line.faulty c (t, Loss.faults losses)).2.2.1
      ((Call.hotpCode index temp).perform Token.line.faulty c (t, Loss.faults losses)).1 := by
  unfold Call.perform
  cases hprepare : ((Call.hotpCode index temp).operation.prepare c).1 with
  | error why =>
    rw [Client.perform_of_refused (Call.tidy _) hprepare]
    exact .kept rfl fun _ => ⟨rfl, why, rfl⟩
  | ok script =>
    obtain ⟨cs, last, hscript, rfl, number, hnumber, rfl⟩ :=
      (Call.hotpCode index temp).asks c script hprepare
    have hwrites : c.Writes t.encoding [.getCode number 0 0 0 temp] := by
      intro x hx
      cases List.mem_singleton.mp hx
      exact Command.toRequest_of_not_write CommandId.noConfusion _ _
    rw [Client.perform_losing (Call.tidy _) hprepare hscript hwrites]
    show HotpCall index _ t (t.askUnder (.getCode number 0 0 0 temp) losses.head?.join).2
      (c.finish _ (t.askUnder (.getCode number 0 0 0 temp) losses.head?.join).1).1
    rcases t.askUnder_cases (.getCode number 0 0 0 temp) losses.head?.join with
      ⟨why, hunder, -⟩ | ⟨-, -, hunder⟩ | ⟨why, -, hunder⟩
    · rw [hunder]
      exact .kept rfl fun _ => ⟨rfl, _, rfl⟩
    · rw [hunder]
      exact .of_ask hnumber (.inl rfl)
    · rw [hunder]
      exact .of_ask (c := c) hnumber (.inr ⟨_, rfl⟩)

end HotpCode

/-- The same in a dialogue: the token goes on as if nobody wrote down what is
said. -/
theorem HotpCall.of_dialogue (d : Dialogue) (c : Client) (temp : Secret)
    (losses : List (Option Loss)) :
    HotpCall index (.hotpCode index temp) d.token
      ((Call.hotpCode index temp).perform Dialogue.line.faulty c
        (d, Loss.faults losses)).2.2.1.token
      ((Call.hotpCode index temp).perform Dialogue.line.faulty c (d, Loss.faults losses)).1 := by
  have hshown := Dialogue.line_shows.faulty.perform c (Call.hotpCode index temp).operation
    (d, Loss.faults losses)
  have hcall : HotpCall index (.hotpCode index temp) d.token _ _ :=
    .of_hotpCode d.token c temp losses
  unfold Call.perform at hcall ⊢
  rw [hshown] at hcall
  exact hcall

/-- **What a call does to an HOTP slot that it does not rewrite.** -/
theorem Call.hotpCall {config : TokenConfig} {d : Dialogue} (hfixed : d.Fixed config) (call : Call)
    (c : Client) (losses : List (Option Loss))
    (hkept : (call.perform Dialogue.line.faulty c (d, Loss.faults losses)).2.2.1.rewritten index
      = d.rewritten index) :
    HotpCall index call d.token
      (call.perform Dialogue.line.faulty c (d, Loss.faults losses)).2.2.1.token
      (call.perform Dialogue.line.faulty c (d, Loss.faults losses)).1 := by
  by_cases hcounts : call.counts .hotp index = true
  · cases call with
    | hotpCode i temp =>
      obtain ⟨-, rfl⟩ := of_decide_eq_true hcounts
      exact .of_dialogue d c temp losses
    | _ => cases hcounts
  · have hnot : call.counts .hotp index = false := Bool.eq_false_iff.mpr hcounts
    refine .kept ?_ fun h => absurd h hcounts
    obtain ⟨heard, hasked, hstate⟩ := call.exists_heard c d losses
    rw [hstate] at hkept ⊢
    refine Dialogue.run_hotp hfixed _ (fun report hreport => ?_) hkept
    obtain ⟨q, hq, rfl⟩ := List.mem_map.mp hreport
    obtain ⟨cs, last, x, hasks, hx, hrequest⟩ := hasked q hq
    exact Dialogue.idle_of_request hrequest (hasks.counts hnot hx)

/-! ## §3. Slots that were used. -/

namespace CodeSlot

/-- The same slot with its counter `n` further on; nothing has started over. -/
structure Advanced (slot slot' : CodeSlot) (n : Nat) : Prop where
  same : slot' = { slot with
    details := { slot.details with counter := slot'.details.counter } }
  counter : slot'.details.counter.toNat = slot.details.counter.toNat + n

/-- The value is the code of a slot at a counter. -/
def Gives (slot : CodeSlot) (counter : UInt64) (v : Value) : Prop :=
  ∃ code, counterCode slot.secret.bytes counter slot.details.flags.digits = .ok code
    ∧ v = .text code

/-- The slot was used between two points: `codes` are the codes that the caller
got, **the last one first**.  They are codes of the slot at counters that go
up, none of them from before or after. -/
structure Used (slot slot' : CodeSlot) (codes : List Value) : Prop where
  advanced : ∃ n, slot.Advanced slot' n
  /-- Each code next to its counter. -/
  counters : ∃ used : List (UInt64 × Value), used.map Prod.snd = codes
    ∧ used.Pairwise (fun later earlier => earlier.1 < later.1)
    ∧ ∀ x ∈ used, slot.details.counter ≤ x.1 ∧ x.1 < slot'.details.counter ∧ slot.Gives x.1 x.2

variable {slot slot' : CodeSlot} {codes : List Value} {maximum : UInt64}

theorem Advanced.refl (slot : CodeSlot) : slot.Advanced slot 0 := ⟨rfl, rfl⟩

theorem Advanced.counted {n : Nat} (h : slot.Advanced slot' n)
    (hroom : slot'.details.counter < maximum) : slot.Advanced slot'.counted (n + 1) := by
  refine ⟨?_, ?_⟩
  · unfold CodeSlot.counted
    rw [h.same]
  · rw [toNat_counted hroom, h.counter, Nat.add_assoc]

/-- A slot and its codes stay the same while its counter moves on. -/
theorem Advanced.gives {n : Nat} (h : slot.Advanced slot' n) {k : UInt64} {v : Value}
    (hv : slot'.Gives k v) : slot.Gives k v := by
  rw [h.same] at hv
  exact hv

theorem Used.refl (slot : CodeSlot) : slot.Used slot [] :=
  ⟨⟨0, .refl slot⟩, [], rfl, .nil, nofun⟩

theorem lt_counted (h : slot.details.counter < maximum) :
    slot.details.counter < slot.counted.details.counter := by
  rw [UInt64.lt_iff_toNat_lt, toNat_counted h]
  exact Nat.lt_succ_self _

theorem Used.le (h : slot.Used slot' codes) : slot.details.counter ≤ slot'.details.counter := by
  obtain ⟨n, hn⟩ := h.advanced
  rw [UInt64.le_iff_toNat_le, hn.counter]
  exact Nat.le_add_right _ _

/-- A code was given and lost. -/
theorem Used.counted (h : slot.Used slot' codes) (hroom : slot'.details.counter < maximum) :
    slot.Used slot'.counted codes := by
  obtain ⟨⟨n, hn⟩, used, hcodes, hup, hused⟩ := h
  refine ⟨⟨n + 1, hn.counted hroom⟩, used, hcodes, hup, fun x hx => ?_⟩
  obtain ⟨hfrom, hto, hgives⟩ := hused x hx
  exact ⟨hfrom, UInt64.lt_trans hto (lt_counted hroom), hgives⟩

/-- A code was given, and the caller got it. -/
theorem Used.given (h : slot.Used slot' codes) (hroom : slot'.details.counter < maximum)
    {v : Value} (hv : slot'.Gives slot'.details.counter v) :
    slot.Used slot'.counted (v :: codes) := by
  have hle := h.le
  obtain ⟨⟨n, hn⟩, used, hcodes, hup, hused⟩ := h
  refine ⟨⟨n + 1, hn.counted hroom⟩, (slot'.details.counter, v) :: used, ?_, ?_, fun x hx => ?_⟩
  · rw [List.map_cons, hcodes]
  · -- the counters before it are all below
    exact List.pairwise_cons.mpr ⟨fun x hx => (hused x hx).2.1, hup⟩
  · rcases List.mem_cons.mp hx with rfl | hx
    · exact ⟨hle, lt_counted hroom, hn.gives hv⟩
    · obtain ⟨hfrom, hto, hgives⟩ := hused x hx
      exact ⟨hfrom, UInt64.lt_trans hto (lt_counted hroom), hgives⟩

end CodeSlot

/-! ## §4. Journals. -/

/-- A host and a dialogue with its token, and the calls that were done with
their values, **the last one first**. -/
structure Journal where
  client : Client
  dialogue : Dialogue
  done : List (Call × Value)

/-- The codes of an HOTP slot among what was done. -/
def codesOf (index : UInt8) (done : List (Call × Value)) : List Value :=
  (done.filter fun x => x.1.counts .hotp index).map Prod.snd

theorem codesOf_cons_of_counts {call : Call} (h : call.counts .hotp index = true) (v : Value)
    (done : List (Call × Value)) : codesOf index ((call, v) :: done) = v :: codesOf index done := by
  unfold codesOf
  rw [List.filter_cons, if_pos h]
  rfl

theorem codesOf_cons_of_not_counts {call : Call} (h : ¬ call.counts .hotp index = true) (v : Value)
    (done : List (Call × Value)) : codesOf index ((call, v) :: done) = codesOf index done := by
  unfold codesOf
  rw [List.filter_cons, if_neg h]

namespace Journal

/-- The HOTP slot of the token. -/
def hotp? (j : Journal) (index : UInt8) : Option CodeSlot := j.dialogue.token.hotp? index

/-- The greatest counter that the token can write. -/
def maximum (j : Journal) : UInt64 := j.dialogue.token.encoding.maximum

/-- How many times the token has rewritten an HOTP slot. -/
def rewritten (j : Journal) (index : UInt8) : Nat := j.dialogue.rewritten index

/-- A call over the line with losses. -/
def perform (j : Journal) (call : Call) (losses : List (Option Loss)) :
    Except Error Value × Client × Dialogue × List (Option Fault) :=
  call.perform Dialogue.line.faulty j.client (j.dialogue, Loss.faults losses)

/-- The journal after one more call, with what is lost of its reports. -/
def step (j : Journal) (call : Call) (losses : List (Option Loss)) : Journal where
  client := (j.perform call losses).2.1
  dialogue := (j.perform call losses).2.2.1
  done := match (j.perform call losses).1 with
    | .ok v => (call, v) :: j.done
    | .error _ => j.done

/-- The journal after more calls, the first one first. -/
def run (j : Journal) (calls : List (Call × List (Option Loss))) : Journal :=
  calls.foldl (fun j x => j.step x.1 x.2) j

theorem run_induction {I : Journal → Prop} {j : Journal} (h : I j)
    (hstep : ∀ j call losses, I j → I (j.step call losses))
    (calls : List (Call × List (Option Loss))) : I (j.run calls) := by
  induction calls generalizing j with
  | nil => exact h
  | cons x calls ih => exact ih (hstep j x.1 x.2 h)

/-- The dialogue is one with a token that left the factory with these
settings. -/
def From (config : TokenConfig) (j : Journal) : Prop :=
  ∃ reports, j.dialogue = (Dialogue.start config).run reports

variable {config : TokenConfig} {j : Journal}

theorem From.fixed (h : j.From config) : j.dialogue.Fixed config := by
  obtain ⟨reports, hreports⟩ := h
  rw [hreports]
  exact Dialogue.fixed_run config reports

theorem From.bounded (h : j.From config) : j.dialogue.token.Bounded := by
  obtain ⟨reports, hreports⟩ := h
  rw [hreports]
  exact Dialogue.bounded_run config reports

theorem From.maximum_eq {j' : Journal} (h : j.From config) (h' : j'.From config) :
    j'.maximum = j.maximum :=
  congrArg CounterEncoding.maximum (Token.encoding_eq (h'.fixed.1.trans h.fixed.1.symm))

theorem From.step (h : j.From config) (call : Call) (losses : List (Option Loss)) :
    (j.step call losses).From config := by
  obtain ⟨reports, hreports⟩ := h
  obtain ⟨heard, -, hstate⟩ := call.exists_heard j.client j.dialogue losses
  refine ⟨reports ++ heard.map Request.toReport, ?_⟩
  rw [Dialogue.run_append, ← hreports]
  exact hstate

theorem rewritten_le_step (j : Journal) (call : Call) (losses : List (Option Loss))
    (index : UInt8) : j.rewritten index ≤ (j.step call losses).rewritten index := by
  obtain ⟨heard, -, hstate⟩ := call.exists_heard j.client j.dialogue losses
  unfold rewritten step perform
  dsimp only
  rw [hstate]
  exact j.dialogue.rewritten_le_run _ index

/-- What one call does to an HOTP slot that it does not rewrite. -/
theorem From.hotpCall (h : j.From config) {call : Call} {losses : List (Option Loss)}
    (hkept : (j.step call losses).rewritten index = j.rewritten index) :
    HotpCall index call j.dialogue.token (j.step call losses).dialogue.token
      (j.perform call losses).1 :=
  call.hotpCall h.fixed j.client losses hkept

/-! ## §5. Every run. -/

/-- What has become of an HOTP slot that was not rewritten; `recent` is what was
done since. -/
structure Kept (index : UInt8) (j later : Journal) (recent : List (Call × Value)) : Prop where
  done : later.done = recent ++ j.done
  /-- An empty slot stays empty and gives no code. -/
  empty : j.hotp? index = none → later.hotp? index = none ∧ codesOf index recent = []
  used : ∀ slot, j.hotp? index = some slot →
    ∃ slot', later.hotp? index = some slot' ∧ slot.Used slot' (codesOf index recent)

theorem Kept.refl (index : UInt8) (j : Journal) : Kept index j j [] :=
  ⟨rfl, fun h => ⟨h, rfl⟩, fun slot h => ⟨slot, h, .refl slot⟩⟩

section Kept

variable {later : Journal} {recent : List (Call × Value)} {call : Call}
  {losses : List (Option Loss)} {v : Value} {why : Error}

theorem done_of_ok (h : (j.perform call losses).1 = .ok v) :
    (j.step call losses).done = (call, v) :: j.done := by
  unfold step
  rw [h]

theorem done_of_error (h : (j.perform call losses).1 = .error why) :
    (j.step call losses).done = j.done := by
  unfold step
  rw [h]

/-- The slot stays as it is. -/
theorem Kept.of_same {recent' : List (Call × Value)} (h : Kept index j later recent)
    (hdone : (later.step call losses).done = recent' ++ j.done)
    (hsame : (later.step call losses).hotp? index = later.hotp? index)
    (hcodes : codesOf index recent' = codesOf index recent) :
    Kept index j (later.step call losses) recent' := by
  refine ⟨hdone, ?_, ?_⟩
  · rw [hsame, hcodes]
    exact h.empty
  · rw [hsame, hcodes]
    exact h.used

/-- A code of the slot is given, and `recent'` has its value if the caller got
it. -/
theorem Kept.of_given {recent' : List (Call × Value)} {slot : CodeSlot} {maximum : UInt64}
    (h : Kept index j later recent) (hdone : (later.step call losses).done = recent' ++ j.done)
    (hslot : later.hotp? index = some slot) (hroom : slot.details.counter < maximum)
    (hnext : (later.step call losses).hotp? index = some slot.counted)
    (hcodes : codesOf index recent' = codesOf index recent
      ∨ ∃ v, slot.Gives slot.details.counter v
          ∧ codesOf index recent' = v :: codesOf index recent) :
    Kept index j (later.step call losses) recent' := by
  refine ⟨hdone, fun hnone => ?_, fun first hfirst => ⟨slot.counted, hnext, ?_⟩⟩
  · cases (h.empty hnone).1.symm.trans hslot
  · obtain ⟨slot', hslot', hused⟩ := h.used first hfirst
    cases hslot'.symm.trans hslot
    rcases hcodes with hcodes | ⟨v, hv, hcodes⟩
    · rw [hcodes]
      exact hused.counted hroom
    · rw [hcodes]
      exact hused.given hroom hv

theorem Kept.step (h : Kept index j later recent)
    (hcall : HotpCall index call later.dialogue.token (later.step call losses).dialogue.token
      (later.perform call losses).1) :
    ∃ recent', Kept index j (later.step call losses) recent' := by
  have hok : ∀ v, (later.perform call losses).1 = .ok v →
      (later.step call losses).done = (call, v) :: recent ++ j.done := by
    intro v hv
    rw [done_of_ok hv, h.done]
    rfl
  have herror : ∀ why, (later.perform call losses).1 = .error why →
      (later.step call losses).done = recent ++ j.done := by
    intro why hwhy
    rw [done_of_error hwhy, h.done]
  cases hcall with
  | kept hsame hresult =>
    cases hr : (later.perform call losses).1 with
    | error why => exact ⟨recent, h.of_same (herror why hr) hsame rfl⟩
    | ok v =>
      -- it was no call for a code of the slot
      have hcounts : ¬ call.counts .hotp index = true := by
        intro hcounts
        obtain ⟨-, why, hwhy⟩ := hresult hcounts
        cases hwhy.symm.trans hr
      exact ⟨(call, v) :: recent, h.of_same (hok v hr) hsame
        (codesOf_cons_of_not_counts hcounts v recent)⟩
  | @given slot code hcounts hslot hroom hcode hnext hresult =>
    rcases hresult with hr | ⟨why, hr⟩
    · refine ⟨(call, .text code) :: recent, h.of_given (hok _ hr) hslot hroom hnext (.inr ?_)⟩
      exact ⟨.text code, ⟨code, hcode, rfl⟩, codesOf_cons_of_counts hcounts _ recent⟩
    · exact ⟨recent, h.of_given (herror why hr) hslot hroom hnext (.inl rfl)⟩

end Kept

/-- **Over every run that does not rewrite an HOTP slot**, the slot stays the
same but for its counter. -/
theorem From.kept_run (h : j.From config) (index : UInt8)
    (calls : List (Call × List (Option Loss))) :
    (j.run calls).From config ∧ j.rewritten index ≤ (j.run calls).rewritten index
      ∧ ((j.run calls).rewritten index = j.rewritten index →
          ∃ recent, Kept index j (j.run calls) recent) := by
  refine run_induction (I := fun later => later.From config
    ∧ j.rewritten index ≤ later.rewritten index
    ∧ (later.rewritten index = j.rewritten index → ∃ recent, Kept index j later recent))
    ⟨h, Nat.le_refl _, fun _ => ⟨[], .refl index j⟩⟩ ?_ calls
  rintro later call losses ⟨hfrom, hle, hkept⟩
  have hstep := later.rewritten_le_step call losses index
  refine ⟨hfrom.step call losses, Nat.le_trans hle hstep, fun heq => ?_⟩
  -- not rewritten in the whole run, so neither before this call nor in it
  obtain ⟨recent, hrecent⟩ := hkept (by omega)
  have hsame : (later.step call losses).rewritten index = later.rewritten index := by omega
  exact hrecent.step (hfrom.hotpCall hsame)

/-- A code is refused at the maximum, and nothing changes. -/
theorem refused_of_maximum {slot : CodeSlot} (hslot : j.hotp? index = some slot)
    (hmax : j.maximum ≤ slot.details.counter) (temp : Secret) (losses : List (Option Loss)) :
    (∃ why, (j.perform (.hotpCode index temp) losses).1 = .error why)
      ∧ (j.step (.hotpCode index temp) losses).dialogue.token = j.dialogue.token := by
  have hcall : HotpCall index (.hotpCode index temp) j.dialogue.token
      (j.step (.hotpCode index temp) losses).dialogue.token
      (j.perform (.hotpCode index temp) losses).1 := .of_dialogue j.dialogue j.client temp losses
  cases hcall with
  | kept _ hresult =>
    obtain ⟨hsame, hwhy⟩ := hresult (decide_eq_true ⟨rfl, rfl⟩)
    exact ⟨hwhy, hsame⟩
  | given _ hslot' hroom =>
    cases hslot'.symm.trans hslot
    exact absurd hroom (UInt64.not_lt.mpr hmax)

end Journal

/-- **The counters of HOTP slots, over every run on a line with losses.**
Whatever the factory settings of a token and whatever was said to it, whatever
the host takes it to be capable of, and whatever calls it has made, of whose
requests and responses any were lost:

* no counter is above the maximum;
* a call that does not rewrite the slot moves its counter by one or not at all,
  only if it is a call for a code of the slot, and surely if that call is done;
  its value is the code at the counter before;
* after any more calls, as long as the slot is not rewritten, it is the same
  slot with its counter further on, and the codes that the caller has got since
  are its codes at counters that go up;
* from the maximum on every call for a code fails and changes nothing, until
  the slot is rewritten. -/
theorem counters_over_runs (config : TokenConfig) (client : Client) (reports : List Report)
    (before : List (Call × List (Option Loss))) (index : UInt8) :
    let now := Journal.run ⟨client, (Dialogue.start config).run reports, []⟩ before
    (∀ slot, now.hotp? index = some slot → slot.details.counter ≤ now.maximum)
      ∧ (∀ call losses,
          let next := now.step call losses
          next.rewritten index = now.rewritten index →
            (now.hotp? index = none → next.hotp? index = none
              ∧ (call.counts .hotp index = true → ∃ why, (now.perform call losses).1 = .error why))
            ∧ ∀ slot, now.hotp? index = some slot →
                ∃ slot' n, next.hotp? index = some slot' ∧ slot.Advanced slot' n ∧ n ≤ 1
                  ∧ (call.counts .hotp index = false → n = 0)
                  ∧ (call.counts .hotp index = true → ∀ v,
                      (now.perform call losses).1 = .ok v →
                        n = 1 ∧ slot.Gives slot.details.counter v))
      ∧ (∀ calls,
          let later := now.run calls
          later.rewritten index = now.rewritten index →
            ∃ recent, Journal.Kept index now later recent)
      ∧ ∀ slot calls,
          let later := now.run calls
          now.hotp? index = some slot → slot.details.counter = now.maximum →
          later.rewritten index = now.rewritten index → ∀ temp losses,
            (∃ why, (later.perform (.hotpCode index temp) losses).1 = .error why)
              ∧ (later.step (.hotpCode index temp) losses).dialogue.token
                = later.dialogue.token := by
  intro now
  have hfrom : now.From config :=
    Journal.run_induction ⟨reports, rfl⟩ (fun _ call losses h => h.step call losses) before
  refine ⟨hfrom.bounded index, ?_, ?_, ?_⟩
  · intro call losses next hkept
    have hcall := hfrom.hotpCall hkept
    cases hcall with
    | kept hsame hresult =>
      refine ⟨fun hnone => ⟨hsame.trans hnone, fun hcounts => (hresult hcounts).2⟩, ?_⟩
      intro slot hslot
      refine ⟨slot, 0, hsame.trans hslot, .refl slot, Nat.zero_le 1, fun _ => rfl, ?_⟩
      intro hcounts v hv
      obtain ⟨-, why, hwhy⟩ := hresult hcounts
      cases hwhy.symm.trans hv
    | @given slot code hcounts hslot hroom hcode hnext hresult =>
      refine ⟨fun hnone => ?_, fun slot' hslot' => ?_⟩
      · cases hnone.symm.trans hslot
      · cases hslot'.symm.trans hslot
        refine ⟨slot.counted, 1, hnext, (CodeSlot.Advanced.refl slot).counted hroom,
          Nat.le_refl 1, fun hnot => ?_, fun _ v hv => ⟨rfl, code, hcode, ?_⟩⟩
        · cases hcounts.symm.trans hnot
        · rcases hresult with hresult | ⟨why, hresult⟩
          · exact Except.ok.inj (hv.symm.trans hresult)
          · cases hresult.symm.trans hv
  · intro calls later hkept
    exact (hfrom.kept_run index calls).2.2 hkept
  · intro slot calls later hslot hmax hkept temp losses
    obtain ⟨hlater, -, hrun⟩ := hfrom.kept_run index calls
    obtain ⟨recent, hrecent⟩ := hrun hkept
    obtain ⟨slot', hslot', hused⟩ := hrecent.used slot hslot
    -- the counter has not gone down
    refine later.refused_of_maximum hslot' ?_ temp losses
    rw [hfrom.maximum_eq hlater, ← hmax]
    exact hused.le

-- The test secret of RFC 4226: the first code is given and lost, and the
-- caller gets the second of the table.
set_option maxRecDepth 20000 in
example :
    (let temp : Secret := .ofText "temp"
     let data : SlotData := ⟨"a", "3132333435363738393031323334353637383930", {}, ""⟩
     let now := Journal.run ⟨.fresh ⟨true, none⟩, .start .factory, []⟩
       [(.firstAuthenticate (.ofText "12345678") temp, []), (.writeHotp 0 data 0 temp, []),
         (.hotpCode 0 ⟨[]⟩, [some (.response .disconnected)]), (.hotpCode 0 ⟨[]⟩, [])]
     (codesOf 0 now.done, (now.hotp? 0).map fun slot => slot.details.counter))
      = ([.text "287082"], some 2) := by decide +kernel

end OtpToken
