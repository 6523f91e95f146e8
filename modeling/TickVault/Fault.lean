import TickVault.Document.Wording

/-!
Everything that can refuse a call, one constructor per cause. `Fault.kind?` sorts the causes the
protocol names into a tree of kinds, and `Fault.message?` words them.
-/

namespace TickVault

inductive Kind where
  | protocol
  | input
  | insufficientCollateral
  | insufficientDebt
  | slippageExceeded
  | amountInsufficient
  | userDebtTooLow
  | invalidOperateAmount
  | invalidOraclePrice
  | policy
  | aboveCollateralFactor
  | aboveLiquidationThreshold
  | maxUtilizationReached
  | borrowLimitReached
  | invalidPositionAuthority
  | nothingToLiquidate
  | positionNotFound
  | vaultNotFound
  | invariant
  | branchCycle
  | bitmapDesync
  | tickOutOfRange
  | underflow
  | arithmeticOverflow
  deriving DecidableEq

namespace Kind

def all : List Kind :=
  [protocol, input, insufficientCollateral, insufficientDebt, slippageExceeded,
   amountInsufficient, userDebtTooLow, invalidOperateAmount, invalidOraclePrice, policy,
   aboveCollateralFactor, aboveLiquidationThreshold, maxUtilizationReached,
   borrowLimitReached, invalidPositionAuthority, nothingToLiquidate, positionNotFound,
   vaultNotFound, invariant, branchCycle, bitmapDesync, tickOutOfRange, underflow,
   arithmeticOverflow]

def name : Kind → String
  | protocol => "ProtocolError"
  | input => "InputError"
  | insufficientCollateral => "InsufficientCollateral"
  | insufficientDebt => "InsufficientDebt"
  | slippageExceeded => "SlippageExceeded"
  | amountInsufficient => "AmountInsufficient"
  | userDebtTooLow => "UserDebtTooLow"
  | invalidOperateAmount => "InvalidOperateAmount"
  | invalidOraclePrice => "InvalidOraclePrice"
  | policy => "PolicyViolation"
  | aboveCollateralFactor => "PositionAboveCollateralFactor"
  | aboveLiquidationThreshold => "PositionAboveLiquidationThreshold"
  | maxUtilizationReached => "MaxUtilizationReached"
  | borrowLimitReached => "BorrowLimitReached"
  | invalidPositionAuthority => "InvalidPositionAuthority"
  | nothingToLiquidate => "NothingToLiquidate"
  | positionNotFound => "PositionNotFound"
  | vaultNotFound => "VaultNotFound"
  | invariant => "InvariantViolation"
  | branchCycle => "BranchCycle"
  | bitmapDesync => "BitmapDesync"
  | tickOutOfRange => "TickOutOfRange"
  | underflow => "Underflow"
  | arithmeticOverflow => "ArithmeticOverflow"

def ofName? (text : String) : Option Kind :=
  all.find? (·.name == text)

def parent? : Kind → Option Kind
  | protocol => none
  | input | policy | invariant => some protocol
  | insufficientCollateral | insufficientDebt | slippageExceeded | amountInsufficient
  | invalidOperateAmount | invalidOraclePrice => some input
  | userDebtTooLow => some amountInsufficient
  | aboveCollateralFactor | maxUtilizationReached | borrowLimitReached
  | invalidPositionAuthority | nothingToLiquidate | positionNotFound | vaultNotFound =>
    some policy
  | aboveLiquidationThreshold => some aboveCollateralFactor
  | branchCycle | bitmapDesync | tickOutOfRange | underflow | arithmeticOverflow =>
    some invariant

def ancestors : Nat → Kind → List Kind
  | 0, _ => []
  | depth + 1, kind =>
    match kind.parent? with
    | none => []
    | some parent => parent :: ancestors depth parent

/-- A kind followed by ever more general ones; no kind lies deeper than three below the root. -/
def lineage (kind : Kind) : List Kind :=
  kind :: ancestors 3 kind

end Kind

inductive Account where
  | amount
  | totalSupply
  | totalBorrow
  | tickCollateral
  deriving DecidableEq

inductive Fault where
  -- requests
  | nothingToOperate
  | operateTooSmall (amount : Int)
  | operateTooLarge (amount : Int)
  | depositRequired
  | depositRoundsToZero
  | withdrawalTooLarge (withdrawn : Int) (held : Document)
  | debtWithoutCollateral
  | paybackTooLarge (paid owed : Int)
  | positionDebtTooLow (debt : Int)
  | debtNotPositive (requested : Int)
  | slippage (paid minimum : Int)
  | oracleRate (rate : Int)
  -- policy
  | positionRatioTooHigh
  | aboveCollateralFactor (tick limit : Int)
  | aboveLiquidationThreshold (tick limit : Int)
  | borrowUnavailable (amount available : Int)
  | borrowLimitReached (limit : Document)
  | notOwner (signer : String) (position : Document)
  | nothingAboveLiquidationTick (tick : Int)
  | nothingAboveMaxLimitTick (tick : Int)
  | unknownPosition (position : Int)
  | unknownVault (vault : Document)
  -- ledgers that disagree, and arithmetic outside its range
  | branchCycle (start revisited : Document)
  | bitMismatch (tick debt : Document) (bit : Bool)
  | bitWithoutDebt (tick : Int)
  | totalBorrowMismatch (ticks : Int) (total : Document)
  | topmostMismatch (stored : Document) (highest : Int)
  | tickOutOfRange (tick : Int)
  | ratioOutOfRange (ratio : Int)
  | perfectRatioTooHigh
  | positionRatioOutOfRange (ratio : Int)
  | positionTickOutOfRange (tick : Int)
  | subtractionUnderflow (account : Account) (held : Document) (taken : Int)
  | tickDebtUnderflow (taken : Int) (tick held : Document)
  | partialWouldEmpty (taken : Int) (tick : Document)
  | branchOwnsNothing (branch : Document)
  | branchDebtExceeded (branch : Document)
  | branchCollateralExceeded (branch : Document)
  | additionOverflow
  | zeroDivisor
  -- causes outside the protocol's own kinds
  | divisionByZero
  | unknownBranch (branch : Document)
  | collateralFactorRange
  | maxLimitRange
  | borrowFeeRange
  | borrowLimitRange
  | exchangePriceDecrease
  | positionExists (position : Document)
  | vaultExists (vault : Int)
  | bitmapSize (bytes : Nat)
  | segmentSize
  | notHex
  | unknownBranchStatus
  | unsupportedVersion (version : Document)
  | missingKey (key : String)
  | notAPair (place length : Nat)
  | indexOutOfRange
  | malformedRecord
  | transferRefused
  | tooManyCopies
  | outOfMemory
  | quotientTooLarge
  | integerTooLarge
  | infinityToInteger
  | nanToInteger
  | tooManyDigits
  deriving DecidableEq

namespace Fault

/-- The protocol's kind of a fault, `none` for a cause outside the protocol. -/
def kind? : Fault → Option Kind
  | nothingToOperate | operateTooLarge _ | depositRequired => some .invalidOperateAmount
  | operateTooSmall _ | depositRoundsToZero | debtNotPositive _ => some .amountInsufficient
  | withdrawalTooLarge _ _ | debtWithoutCollateral => some .insufficientCollateral
  | paybackTooLarge _ _ => some .insufficientDebt
  | positionDebtTooLow _ => some .userDebtTooLow
  | slippage _ _ => some .slippageExceeded
  | oracleRate _ => some .invalidOraclePrice
  | positionRatioTooHigh | aboveCollateralFactor _ _ => some .aboveCollateralFactor
  | aboveLiquidationThreshold _ _ => some .aboveLiquidationThreshold
  | borrowUnavailable _ _ => some .maxUtilizationReached
  | borrowLimitReached _ => some .borrowLimitReached
  | notOwner _ _ => some .invalidPositionAuthority
  | nothingAboveLiquidationTick _ | nothingAboveMaxLimitTick _ => some .nothingToLiquidate
  | unknownPosition _ => some .positionNotFound
  | unknownVault _ => some .vaultNotFound
  | branchCycle _ _ => some .branchCycle
  | bitMismatch _ _ _ | bitWithoutDebt _ | totalBorrowMismatch _ _ | topmostMismatch _ _ =>
    some .bitmapDesync
  | tickOutOfRange _ | ratioOutOfRange _ | perfectRatioTooHigh | positionRatioOutOfRange _
  | positionTickOutOfRange _ => some .tickOutOfRange
  | subtractionUnderflow _ _ _ | tickDebtUnderflow _ _ _ | partialWouldEmpty _ _
  | branchOwnsNothing _ | branchDebtExceeded _ | branchCollateralExceeded _ => some .underflow
  | additionOverflow | zeroDivisor => some .arithmeticOverflow
  | _ => none

def message? : Fault → Option String
  | nothingToOperate => some "Nothing to operate"
  | operateTooSmall amount => some s!"Operate amount {amount} below minimum {minOperate}"
  | operateTooLarge amount => some s!"Operate amount {amount} above maximum"
  | depositRequired => some "A new position needs a collateral deposit"
  | depositRoundsToZero => some "Deposit rounds to zero"
  | withdrawalTooLarge withdrawn held =>
    some s!"Withdrawing {withdrawn} from {held.wording} raw collateral"
  | debtWithoutCollateral => some "Debt without collateral"
  | paybackTooLarge paid owed => some s!"Paying back {paid} of {owed} raw debt"
  | positionDebtTooLow debt => some s!"Position debt {debt} below minimum {minDebt}"
  | debtNotPositive requested => some s!"Requested debt {requested} must be positive"
  | slippage paid minimum => some s!"Collateral per debt {paid} below {minimum}"
  | oracleRate rate =>
    some s!"Oracle rate {rate} outside [{minOracleRate}, {maxOracleRate}]"
  | positionRatioTooHigh => some "Position ratio above maximum tick"
  | aboveCollateralFactor tick limit =>
    some s!"Position tick {tick} above collateral factor tick {limit}"
  | aboveLiquidationThreshold tick limit =>
    some s!"Position tick {tick} above liquidation tick {limit}"
  | borrowUnavailable amount available =>
    some s!"Borrow of {amount} above available {available}"
  | borrowLimitReached limit => some s!"Vault borrow above limit {limit.wording}"
  | notOwner signer position => some s!"{signer} does not own position {position.wording}"
  | nothingAboveLiquidationTick tick => some s!"No debt above liquidation tick {tick}"
  | nothingAboveMaxLimitTick tick => some s!"No debt above max limit tick {tick}"
  | unknownPosition position => some s!"Position {position} not found"
  | unknownVault vault => some s!"Vault {vault.wording} not found"
  | branchCycle start revisited =>
    some s!"Branch chain from {start.wording} revisits {revisited.wording}"
  | bitMismatch tick debt bit =>
    some s!"Tick {tick.wording} debt {debt.wording} vs bit {flagText bit}"
  | bitWithoutDebt tick => some s!"Bit set for tick {tick} without debt"
  | totalBorrowMismatch ticks total => some s!"Tick debt {ticks} != total borrow {total.wording}"
  | topmostMismatch stored highest =>
    some s!"Topmost tick {stored.wording} != highest tick with debt {highest}"
  | tickOutOfRange tick => some s!"Tick {tick} outside [{minTick}, {maxTick}]"
  | ratioOutOfRange ratio =>
    some s!"Ratio {ratio} outside [{minRatio}, {maxRatio}]"
  | perfectRatioTooHigh => some "Perfect ratio above input ratio"
  | positionRatioOutOfRange ratio => some s!"Position ratio {ratio} above maximum"
  | positionTickOutOfRange tick => some s!"Position tick {tick} above maximum"
  | subtractionUnderflow _ held taken =>
    some s!"Arithmetic underflow in subtraction: {held.wording} - {taken}"
  | tickDebtUnderflow taken tick held =>
    some s!"Removing {taken} from tick {tick.wording} holding {held.wording}"
  | partialWouldEmpty taken tick =>
    some s!"Partial liquidation of {taken} would empty tick {tick.wording}"
  | branchOwnsNothing branch => some s!"Branch {branch.wording} owns no ticks"
  | branchDebtExceeded branch =>
    some s!"Branch {branch.wording} liquidated more debt than entered"
  | branchCollateralExceeded branch =>
    some s!"Branch {branch.wording} liquidated more collateral than entered"
  | additionOverflow => some "Arithmetic overflow in addition"
  | zeroDivisor => some "Division by zero"
  | divisionByZero => none
  | unknownBranch branch => some s!"Unknown branch {branch.wording}"
  | collateralFactorRange => some "collateral_factor must be in (0, liquidation_threshold]"
  | maxLimitRange =>
    some s!"liquidation_max_limit must be in (liquidation_threshold, {riskScale}]"
  | borrowFeeRange => some s!"borrow_fee must be in [0, {bpsScale})"
  | borrowLimitRange => some "borrow_limit must be positive"
  | exchangePriceDecrease => some "Exchange prices can't decrease"
  | positionExists position => some s!"Position {position.wording} already exists"
  | vaultExists vault => some s!"Vault {vault} already exists"
  | bitmapSize bytes => some s!"Bitmap must be {bitmapBytes} bytes, got {bytes}"
  | segmentSize => some s!"Map segment must be {mapBytes} bytes"
  | notHex => none
  | unknownBranchStatus => none
  | unsupportedVersion version => some s!"Unsupported vault dump version {version.wording}"
  | missingKey key => some key
  | notAPair place length =>
    some s!"dictionary update sequence element #{place} has length {length}; 2 is required"
  | indexOutOfRange => none
  | malformedRecord => none
  | transferRefused => some "transfer refused"
  | tooManyCopies | outOfMemory | quotientTooLarge | integerTooLarge | infinityToInteger => none
  | nanToInteger => some "cannot convert float NaN to integer"
  | tooManyDigits =>
    some (s!"Exceeds the limit ({maxDigits} digits) for integer string conversion; " ++
      "use sys.set_int_max_str_digits() to increase the limit")

/-- The integers that the words of a fault are made with. -/
def integers : Fault → List Int
  | operateTooSmall amount | operateTooLarge amount => [amount]
  | withdrawalTooLarge withdrawn held => withdrawn :: held.integers
  | paybackTooLarge paid owed => [paid, owed]
  | positionDebtTooLow debt => [debt]
  | debtNotPositive requested => [requested]
  | slippage paid minimum => [paid, minimum]
  | oracleRate rate => [rate]
  | aboveCollateralFactor tick limit | aboveLiquidationThreshold tick limit => [tick, limit]
  | borrowUnavailable amount available => [amount, available]
  | borrowLimitReached limit => limit.integers
  | notOwner _ position => position.integers
  | nothingAboveLiquidationTick tick | nothingAboveMaxLimitTick tick => [tick]
  | unknownPosition position => [position]
  | unknownVault vault => vault.integers
  | branchCycle start revisited => start.integers ++ revisited.integers
  | bitMismatch tick debt _ => tick.integers ++ debt.integers
  | bitWithoutDebt tick => [tick]
  | totalBorrowMismatch ticks total => ticks :: total.integers
  | topmostMismatch stored highest => highest :: stored.integers
  | tickOutOfRange tick | positionTickOutOfRange tick => [tick]
  | ratioOutOfRange ratio | positionRatioOutOfRange ratio => [ratio]
  | subtractionUnderflow _ held taken => taken :: held.integers
  | tickDebtUnderflow taken tick held => taken :: (tick.integers ++ held.integers)
  | partialWouldEmpty taken tick => taken :: tick.integers
  | branchOwnsNothing branch | branchDebtExceeded branch | branchCollateralExceeded branch
  | unknownBranch branch => branch.integers
  | positionExists position => position.integers
  | vaultExists vault => [vault]
  | bitmapSize bytes => [bytes]
  | unsupportedVersion version => version.integers
  | _ => []

/-- What a call ends in that refuses for a cause: the cause, or the failure to word it. -/
def raised (cause : Fault) : Fault :=
  if cause.integers.all isWritable then cause else .tooManyDigits

section Raised

variable {cause fault : Fault}

theorem raised_of_writable (writable : ∀ n ∈ cause.integers, isWritable n) :
    cause.raised = cause :=
  if_pos (List.all_eq_true.mpr writable)

theorem raised_eq_or (cause : Fault) : cause.raised = cause ∨ cause.raised = .tooManyDigits := by
  unfold raised
  split <;> simp

theorem raised_eq_iff (worded : fault ≠ .tooManyDigits) :
    cause.raised = fault ↔ cause = fault ∧ ∀ n ∈ cause.integers, isWritable n := by
  unfold raised
  split
  · rename_i writable
    exact ⟨fun same => ⟨same, List.all_eq_true.mp writable⟩, And.left⟩
  · rename_i unwritable
    refine ⟨fun same => absurd same.symm worded, fun ⟨_, writable⟩ => ?_⟩
    exact absurd (List.all_eq_true.mpr writable) unwritable

theorem raised_eq_tooManyDigits_iff (worded : cause ≠ .tooManyDigits) :
    cause.raised = .tooManyDigits ↔ ∃ n ∈ cause.integers, isWritable n = false := by
  unfold raised
  split <;> simp_all

end Raised

end Fault

def refuse {α : Type} (cause : Fault) : Except Fault α :=
  .error cause.raised

def ensure (condition : Prop) [Decidable condition] (cause : Fault) : Except Fault Unit :=
  if condition then .ok () else refuse cause

@[simp] theorem ok_bind {α β : Type} (a : α) (next : α → Except Fault β) :
    (Except.ok a >>= next) = next a := rfl

theorem refuse_of_writable {α : Type} {cause : Fault}
    (writable : ∀ n ∈ cause.integers, isWritable n) :
    (refuse cause : Except Fault α) = .error cause :=
  congrArg Except.error (Fault.raised_of_writable writable)

@[simp] theorem refuse_bind {α β : Type} (cause : Fault) (next : α → Except Fault β) :
    (refuse cause >>= next) = refuse cause := rfl

@[simp] theorem refuse_ne_ok {α : Type} (cause : Fault) (a : α) : refuse cause ≠ .ok a := nofun

theorem ensure_eq_ok_iff {condition : Prop} [Decidable condition] {cause : Fault} {done : Unit} :
    ensure condition cause = .ok done ↔ condition := by
  unfold ensure
  split <;> simp_all

end TickVault
