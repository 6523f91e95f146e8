import TickVault.Liquidate
import TickVault.Proofs.Tick.Floor

/-!
What may end a call on a vault in order. Work is followed step by step to the faults that it can end
in; each step hands on what it promises, and the next one may rely on it.
-/

namespace TickVault

/-- A fault of the request or against the policy, an amount past the largest one, or more collateral
asked of the vault than it has. -/
inductive Fault.Foreseen : Fault → Prop
  | request {fault : Fault} {kind : Kind} (sorted : fault.kind? = some kind)
      (general : .input ∈ kind.lineage ∨ .policy ∈ kind.lineage) : Foreseen fault
  | overflow : Foreseen .additionOverflow
  | supply (held : Document) (taken : Int) :
      Foreseen (.subtractionUnderflow .totalSupply held taken)

theorem Fault.Foreseen.sorted {fault : Fault} (foreseen : fault.Foreseen) :
    ∃ kind, fault.kind? = some kind ∧
      kind ∉ [Kind.branchCycle, Kind.bitmapDesync, Kind.tickOutOfRange] ∧
      (kind = .underflow → ∃ held taken, fault = .subtractionUnderflow .totalSupply held taken) ∧
      (kind = .arithmeticOverflow → fault = .additionOverflow) := by
  cases foreseen with
  | @request _ kind sorted general =>
    have outside : kind ∉ [Kind.branchCycle, Kind.bitmapDesync, Kind.tickOutOfRange,
        Kind.underflow, Kind.arithmeticOverflow] := by
      intro internal
      revert general
      simp only [List.mem_cons, List.not_mem_nil, or_false] at internal
      rcases internal with rfl | rfl | rfl | rfl | rfl <;> decide
    simp only [List.mem_cons, List.not_mem_nil, or_false, not_or] at outside
    obtain ⟨cycle, desync, range, underflow, overflow⟩ := outside
    refine ⟨kind, sorted, ?_, fun same => absurd same underflow, fun same => absurd same overflow⟩
    simp [cycle, desync, range]
  | overflow => exact ⟨.arithmeticOverflow, rfl, by decide, nofun, fun _ => rfl⟩
  | supply held taken =>
    exact ⟨.underflow, rfl, by decide, fun _ => ⟨held, taken, rfl⟩, nofun⟩

/-- What a call ends in when it refuses for a foreseen cause. -/
def Fault.Awaited (fault : Fault) : Prop :=
  ∃ cause : Fault, cause.Foreseen ∧ fault = cause.raised

theorem Fault.Awaited.foreseen {fault : Fault} (awaited : fault.Awaited)
    (worded : fault ≠ .tooManyDigits) : fault.Foreseen := by
  obtain ⟨cause, foreseen, raised⟩ := awaited
  obtain ⟨rfl, -⟩ := (raised_eq_iff worded).mp raised.symm
  exact foreseen

theorem Fault.Awaited.underflow {fault : Fault} (awaited : fault.Awaited)
    (sorted : fault.kind? = some .underflow) :
    ∃ held taken, fault = .subtractionUnderflow .totalSupply held taken := by
  have worded : fault ≠ .tooManyDigits := by
    rintro rfl
    cases sorted
  obtain ⟨kind, sorted', -, short, -⟩ := (awaited.foreseen worded).sorted
  cases sorted.symm.trans sorted'
  exact short rfl

/-- Work that answers as promised, unless it is refused for a foreseen cause. -/
def Yields {α : Type} (work : Except Fault α) (promise : α → Prop) : Prop :=
  match work with
  | .ok a => promise a
  | .error fault => fault.Awaited

section Yields

variable {α β : Type} {work : Except Fault α} {promise promise' : α → Prop} {a : α}

theorem Yields.ok (yields : Yields work promise) (done : work = .ok a) : promise a := by
  subst done
  exact yields

theorem Yields.awaited {fault : Fault} (yields : Yields work promise)
    (refused : work = .error fault) : fault.Awaited := by
  subst refused
  exact yields

theorem yields_of_ok (done : ∃ a, work = .ok a ∧ promise a) : Yields work promise := by
  obtain ⟨a, rfl, holds⟩ := done
  exact holds

theorem Yields.weaken (yields : Yields work promise)
    (weaker : ∀ a, work = .ok a → promise a → promise' a) : Yields work promise' := by
  cases work with
  | ok a => exact weaker a rfl yields
  | error fault => exact yields

theorem Yields.bind {next : α → Except Fault β} {promised : β → Prop}
    (yields : Yields work promise)
    (later : ∀ a, work = .ok a → promise a → Yields (next a) promised) :
    Yields (work >>= next) promised := by
  cases work with
  | ok a => exact later a rfl yields
  | error fault => exact yields

theorem Yields.map {change : α → β} {promised : β → Prop}
    (yields : Yields work fun a => promised (change a)) : Yields (work.map change) promised := by
  cases work with
  | ok a => exact yields
  | error fault => exact yields

theorem Yields.lift {σ : Type} {state : σ} {next : α → ExceptT Fault (StateM σ) β}
    {promised : β × σ → Prop} (yields : Yields work promise)
    (later : ∀ a, work = .ok a → promise a → Yields (attempt state (next a)) promised) :
    Yields (attempt state (liftM work >>= next)) promised := by
  rw [attempt_bind, attempt_lift]
  cases work with
  | ok a => exact later a rfl yields
  | error fault => exact yields

theorem yields_refuse {cause : Fault} (foreseen : cause.Foreseen) :
    Yields (refuse cause) promise :=
  ⟨cause, foreseen, rfl⟩

theorem yields_ensure {condition : Prop} [Decidable condition] {cause : Fault}
    (foreseen : ¬ condition → cause.Foreseen) :
    Yields (ensure condition cause) fun _ => condition := by
  unfold ensure
  split
  · exact ‹condition›
  · exact yields_refuse (foreseen ‹_›)

end Yields

theorem checkedAdd_yields (a b : Int) : Yields (checkedAdd a b) fun _ => True := by
  unfold checkedAdd
  split
  · exact ⟨.additionOverflow, .overflow, rfl⟩
  · trivial

theorem shiftTotal_yields {account : Account} {total change : Int}
    (covered : account = .totalSupply ∨ 0 ≤ total + change) :
    Yields (shiftTotal account total change) fun _ => True := by
  unfold shiftTotal
  split
  · apply Yields.bind (checkedAdd_yields total change)
    exact fun _ _ _ => trivial
  · refine (?_ : Yields _ fun _ => True).bind fun _ _ _ => trivial
    apply (yields_ensure _).bind
    · exact fun _ _ _ => trivial
    · intro short
      rcases covered with rfl | enough
      · exact .supply _ _
      · omega

theorem shiftTotals_yields {state : VaultState Int} {supplyChange borrowChange : Int}
    (covered : 0 ≤ state.totalBorrow + borrowChange) :
    Yields (state.shiftTotals supplyChange borrowChange) fun _ => True := by
  apply (shiftTotal_yields (.inl rfl)).bind
  intro supply _ _
  apply (shiftTotal_yields (.inr covered)).bind
  exact fun _ _ _ => trivial

theorem checkOperateAmount_yields (amount : Int) :
    Yields (checkOperateAmount amount) fun _ => True := by
  unfold checkOperateAmount
  split
  · trivial
  · apply (yields_ensure fun _ => .request rfl (by decide)).bind
    intro _ _ _
    exact (yields_ensure fun _ => .request rfl (by decide)).weaken fun _ _ _ => trivial

theorem OperateRequest.check_yields (request : OperateRequest) :
    Yields request.check fun _ => True := by
  apply (yields_ensure fun _ => .request rfl (by decide)).bind
  intro _ _ _
  apply (checkOperateAmount_yields request.collateral).bind
  exact fun _ _ _ => checkOperateAmount_yields request.debt

theorem OperateRequest.authorize_yields (request : OperateRequest) (position : Position Int) :
    Yields (request.authorize position) fun _ => True :=
  (yields_ensure fun _ => .request rfl (by decide)).weaken fun _ _ _ => trivial

section Amounts

variable {price : Int} (positive : 0 < price)

include positive

theorem applyCollateral_yields (held change : Int) :
    Yields (applyCollateral held change price) fun _ => True := by
  unfold applyCollateral
  split
  · simp only [toRawDown, floorDiv_of_pos positive, ok_bind]
    apply (yields_ensure fun _ => .request rfl (by decide)).bind
    exact fun _ _ _ => trivial
  split
  · trivial
  split
  · simp only [toRawUp, ceilDiv_of_pos positive, ok_bind, toInt_int]
    apply (yields_ensure fun _ => .request rfl (by decide)).bind
    exact fun _ _ _ => trivial
  · trivial

theorem applyDebt_yields (owed change fee : Int) :
    Yields (applyDebt owed change price fee) fun _ => True := by
  unfold applyDebt
  split
  · simp only [toRawUp, ceilDiv_of_pos positive, ok_bind]
    trivial
  split
  · trivial
  split
  · simp only [toRawDown, floorDiv_of_pos positive, ok_bind]
    apply (yields_ensure fun _ => .request rfl (by decide)).bind
    exact fun _ _ _ => trivial
  · trivial

end Amounts

theorem checkOracleRate_yields (rate : Int) : Yields (checkOracleRate rate) fun _ => True := by
  apply (yields_ensure fun _ => .request rfl (by decide)).bind
  exact fun _ _ _ => trivial

theorem thresholdTick_yields (rate : Int) {prices : ExchangePrices} (threshold : Int)
    (positive : 0 < prices.borrow) : Yields (thresholdTick rate prices threshold) fun _ => True := by
  obtain ⟨tick, found⟩ := thresholdTick_ok rate threshold positive
  exact yields_of_ok ⟨tick, found, trivial⟩

theorem Config.checkLimit_yields (config : Config Int) (owed : Int) :
    Yields (config.checkLimit owed) fun _ => True := by
  unfold checkLimit
  split
  · exact (yields_ensure fun _ => .request rfl (by decide)).weaken fun _ _ _ => trivial
  · trivial

theorem Liquidity.checkBorrow_yields (liquidity : Liquidity) (amount : Int) :
    Yields (liquidity.checkBorrow amount) fun _ => True := by
  unfold checkBorrow
  split
  · exact (yields_ensure fun _ => .request rfl (by decide)).weaken fun _ _ _ => trivial
  · trivial

namespace Vault

theorem checkSlippage_yields (debtAmount collateralAmount minimum : Int) :
    Yields (checkSlippage debtAmount collateralAmount minimum) fun _ => True :=
  (yields_ensure fun _ => .request rfl (by decide)).weaken fun _ _ _ => trivial

theorem checkBorrow_yields (vault : Vault Int) (host : Host) (amount : Int) :
    Yields (vault.checkBorrow host amount) fun _ => True := by
  unfold checkBorrow
  split
  · apply (vault.config.checkLimit_yields _).bind
    exact fun _ _ _ => host.liquidity.checkBorrow_yields amount
  · trivial

theorem checkSafety_yields (vault : Vault Int) {host : Host} (position : Position Int)
    (riskier : Bool) (positive : 0 < host.liquidity.prices.borrow) :
    Yields (vault.checkSafety host position riskier) fun _ => True := by
  unfold checkSafety
  split
  · trivial
  · apply (checkOracleRate_yields host.oracle).bind
    intro rate _ _
    cases riskier with
    | true =>
      apply (thresholdTick_yields rate _ positive).bind
      intro limit _ _
      exact (yields_ensure fun _ => .request rfl (by decide)).weaken fun _ _ _ => trivial
    | false =>
      apply (thresholdTick_yields rate _ positive).bind
      intro limit _ _
      exact (yields_ensure fun _ => .request rfl (by decide)).weaken fun _ _ _ => trivial

end Vault

/-- Nothing is divided by an empty pool: there is nothing to sell from it. -/
theorem VaultState.sellAbsorbed_yields (state : VaultState Int) {requested : Int}
    (nonneg : 0 ≤ requested) : Yields (state.sellAbsorbed requested) fun _ => True := by
  simp only [sellAbsorbed, toInt_int, ok_bind]
  split
  · trivial
  · have pooled : state.absorbedDebt ≠ 0 := by omega
    simp only [floorDiv, if_neg pooled, ok_bind]
    trivial

end TickVault
