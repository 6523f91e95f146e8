import TickVault.Proofs.Resumption.Modes

namespace TickVault

theorem Host.Carried.limit {host host' : Host} {actions : List Action}
    (carried : host.Carried actions host') : host'.limit = host.limit := by
  funext threshold
  simp only [Host.limit, carried.oracle, carried.prices]

namespace Outcome

def haul (outcome : Outcome Int) : Haul :=
  match outcome.reply with
  | .ok reply => reply.haul
  | .error _ => 0

/-- Two calls come to what the whole one comes to. The second may have found nothing to do. -/
structure Completes (whole first second : Outcome Int) : Prop where
  succeeds : ∃ reply, first.reply = .ok reply
  excuse : ∀ fault, second.reply = .error fault → fault.kind? = some .nothingToLiquidate
  vault : second.engine.vault.Alike whole.engine.vault
  haul : whole.haul = first.haul + second.haul

end Outcome

namespace Engine

def attend (engine : Engine Int) : Option Call → Outcome Int
  | some call => engine.perform call
  | none => ⟨.ok .done, engine, .unlimited⟩

/-- Where a whole call succeeds, a cut one and the call for the rest come to the same, as long as
the host refuses no transfer of them. -/
def Resumes (engine : Engine Int) (whole cut : Call) (rest : Haul → Option Call) : Prop :=
  let first := engine.perform cut
  let second := first.engine.attend (rest first.haul)
  (∃ reply, (engine.perform whole).reply = .ok reply) →
    first.reply ≠ .error .transferRefused → second.reply ≠ .error .transferRefused →
    Outcome.Completes (engine.perform whole) first second

variable {engine start later : Engine Int} {α : Type} {reply : α → Reply Int} {pools : Bool}
  {limit asked : Int} {budget : Budget} {whole cut call : Call} {rest : Haul → Option Call}

inductive Concludes (engine : Engine Int) (reply : α → Reply Int) :
    Except Fault (Settlement Int α × Budget) → Outcome Int → Prop
  | settled {settlement : Settlement Int α} {left : Budget} :
      Concludes engine reply (.ok (settlement, left)) (engine.conclude (.ok settlement) reply left)
  | failed {fault : Fault} {left : Budget} :
      Concludes engine reply (.error fault) ⟨.error fault, engine, left⟩

theorem concludes (engine : Engine Int) (reply : α → Reply Int)
    (work : Spending (Settlement Int α)) (budget : Budget) :
    engine.Concludes reply (attempt budget work)
      (engine.conclude (work.run.run budget).1 reply (work.run.run budget).2) := by
  unfold attempt
  cases work.run.run budget with
  | mk worked left =>
    cases worked with
    | ok settlement => exact .settled
    | error fault => exact .failed

def Walks (engine : Engine Int) (reply : α → Reply Int) (call : Call) (budget : Budget)
    (pools : Bool) (limit asked : Int) : Prop :=
  ∃ worked, engine.Concludes reply worked (engine.perform call) ∧
    ∀ ticks pass left, engine.vault.Ahead limit ticks →
      attempt budget (Pass.fill { vault := engine.vault } ticks asked) = .ok (pass, left) →
      engine.vault.Settles pools (fun receipt => (reply receipt).haul) pass left worked

structure Leads (engine : Engine Int) (taken : Int) (later : Engine Int) : Prop where
  standing : later.Standing
  limit : later.host.limit = engine.host.limit
  config : later.vault.config = engine.vault.config
  debt : later.vault.ledger.debt = engine.vault.ledger.debt - taken

structure Settled (engine : Engine Int) (reply : α → Reply Int) (settlement : Settlement Int α)
    (outcome : Outcome Int) : Prop where
  answers : outcome.reply = .ok (reply settlement.receipt)
  vault : outcome.engine.vault = settlement.vault
  haul : outcome.haul = (reply settlement.receipt).haul
  limit : outcome.engine.host.limit = engine.host.limit

variable {worked : Except Fault (Settlement Int α × Budget)} {outcome second : Outcome Int}
  {settlement first : Settlement Int α} {left : Budget} {fault : Fault}

theorem Concludes.settled_of_ok {answer : Reply Int}
    (concludes : engine.Concludes reply worked outcome)
    (answered : outcome.reply = .ok answer) :
    ∃ settlement left, worked = .ok (settlement, left) := by
  cases concludes with
  | settled => exact ⟨_, _, rfl⟩
  | failed => cases answered

theorem Concludes.settles (concludes : engine.Concludes reply (.ok (settlement, left)) outcome)
    (served : outcome.reply ≠ .error .transferRefused) :
    engine.Settled reply settlement outcome := by
  cases concludes with
  | settled =>
    obtain ⟨answered, after, carried⟩ := conclude_served served
    exact ⟨answered, after, by rw [Outcome.haul, answered], carried.limit⟩

theorem Concludes.fails (concludes : engine.Concludes reply (.error fault) outcome) :
    outcome.reply = .error fault ∧ outcome.engine = engine ∧ outcome.haul = 0 := by
  cases concludes
  exact ⟨rfl, rfl, rfl⟩

theorem Settled.completes {whole : Outcome Int} (wholes : engine.Settled reply settlement whole)
    (cuts : engine.Settled reply first outcome)
    (completes : Vault.Completes (fun receipt => (reply receipt).haul) settlement first worked)
    (concludes : outcome.engine.Concludes reply worked second)
    (served : second.reply ≠ .error .transferRefused) : whole.Completes outcome second := by
  cases completes with
  | settled alike sum =>
    have rests := concludes.settles served
    refine ⟨⟨_, cuts.answers⟩, fun fault refused => ?_, ?_, ?_⟩
    · cases rests.answers.symm.trans refused
    · rw [wholes.vault, rests.vault]
      exact alike
    · rw [wholes.haul, cuts.haul, rests.haul]
      exact sum
  | idle kind alike same =>
    obtain ⟨failed, stays, nothing⟩ := concludes.fails
    refine ⟨⟨_, cuts.answers⟩, fun fault refused => ?_, ?_, ?_⟩
    · cases failed.symm.trans refused
      exact kind
    · rw [wholes.vault, stays, cuts.vault]
      exact alike
    · rw [wholes.haul, cuts.haul, nothing, Haul.add_zero]
      exact same

theorem Standing.leads {pass : Pass Int} {ticks : List Int} (standing : engine.Standing)
    (filled : attempt budget (Pass.fill { vault := engine.vault } ticks asked) = .ok (pass, left))
    (closes : (engine.perform call).engine.vault.Alike (engine.vault.closed pass pools))
    (limit : (engine.perform call).engine.host.limit = engine.host.limit) :
    engine.Leads pass.debt (engine.perform call).engine where
  standing := standing.perform call
  limit := limit
  config := closes.config.symm
  debt := by
    have follows := (Pass.follows_start standing.vault.toSound).fill filled
    have debt := follows.debt
    rw [← closes.ledger]
    simp only [Vault.closed]
    omega

theorem Standing.resumes (standing : engine.Standing) (charged : budget.charge.1 = true)
    (wholes : engine.Walks reply whole .unlimited pools limit asked)
    (cuts : engine.Walks reply cut budget pools limit asked)
    (rests : ∀ (later : Engine Int) (pass : Pass Int), engine.Leads pass.debt later →
      match rest (pass.haul pools) with
      | some call => later.Walks reply call .unlimited pools limit (asked - pass.debt)
      | none => asked ≤ pass.debt) : engine.Resumes whole cut rest := by
  rintro ⟨answer, answered⟩ served served'
  obtain ⟨worked, concluded, settles⟩ := wholes
  obtain ⟨cut_worked, cut_concluded, cut_settles⟩ := cuts
  have orderly := standing.vault
  have proceeds := Pass.proceeds_start orderly.toSound standing.governed
  obtain ⟨ticks, -, ahead⟩ := orderly.ticksAbove_ahead limit
  obtain ⟨last, left, filled, -⟩ := proceeds.fill ticks asked .unlimited
  obtain ⟨pass, left', cut_filled, -⟩ := proceeds.fill ticks asked budget
  have wholes := settles ticks last left ahead filled
  have cuts := cut_settles ticks pass left' ahead cut_filled
  obtain ⟨settlement, _, rfl⟩ := concluded.settled_of_ok answered
  have whole_settled := concluded.settles (by rw [answered]; exact fun refused => by cases refused)
  obtain ⟨cut, rfl, closes, hauls⟩ := wholes.of_whole proceeds charged ahead filled cut_filled cuts
  have cut_settled := cut_concluded.settles served
  have leads := standing.leads cut_filled (cut_settled.vault ▸ closes) cut_settled.limit
  have rest_walks := rests _ pass leads
  rw [cut_settled.haul, hauls] at served' ⊢
  cases next : rest (pass.haul pools) with
  | none =>
    rw [next] at rest_walks
    obtain ⟨alike, same⟩ :=
      wholes.satisfied proceeds ahead filled cut_filled closes hauls rest_walks
    refine ⟨⟨_, cut_settled.answers⟩, fun fault refused => (by cases refused), ?_, ?_⟩
    · rw [whole_settled.vault]
      exact cut_settled.vault ▸ alike
    · rw [whole_settled.haul, cut_settled.haul, same]
      exact (Haul.add_zero _).symm
  | some call =>
    rw [next] at rest_walks served'
    obtain ⟨rest_worked, rest_concluded, rest_settles⟩ := rest_walks
    have start := Pass.proceeds_start leads.standing.vault.toSound leads.standing.governed
    rw [cut_settled.vault] at start rest_settles
    have completes := wholes.completes proceeds start ahead filled cut_filled closes hauls
      fun later second left ahead filled => rest_settles later second left ahead filled
    exact whole_settled.completes cut_settled completes rest_concluded served'

def fillRest (request : LiquidateRequest) (taken : Haul) : Option Call :=
  if taken.debt < request.debt then
    some (.liquidate { request with debt := request.debt - taken.debt } .unlimited)
  else none

def again (call : Call) (_ : Haul) : Option Call :=
  some call

theorem Standing.fill_walks {request : LiquidateRequest} (standing : engine.Standing)
    (mode : request.absorb = false) (positive : 0 < request.debt) (minimum : request.minimum = 0)
    (limited : engine.host.limit engine.vault.config.liquidationThreshold = .ok limit)
    (budget : Budget) :
    engine.Walks .liquidated (.liquidate request budget) budget false limit request.debt :=
  ⟨_, concludes engine .liquidated (engine.vault.liquidate engine.host request) budget,
    fun _ _ _ ahead filled => standing.governed.fill_settles standing.vault standing.supply mode
      positive minimum limited ahead filled⟩

theorem Standing.sweep_walks {request : LiquidateRequest} (standing : engine.Standing)
    (mode : request.absorb = true) (nothing : request.debt = 0)
    (limited : engine.host.limit engine.vault.config.liquidationThreshold = .ok limit)
    (enough : engine.vault.ledger.debt ≤ asked) (budget : Budget) :
    engine.Walks .liquidated (.liquidate request budget) budget true limit asked :=
  ⟨_, concludes engine .liquidated (engine.vault.liquidate engine.host request) budget,
    fun _ _ _ ahead filled => standing.governed.liquidate_settles standing.vault standing.pooled
      mode nothing enough limited ahead filled⟩

theorem Standing.absorb_walks (standing : engine.Standing)
    (limited : engine.host.limit engine.vault.config.liquidationMaxLimit = .ok limit)
    (enough : engine.vault.ledger.debt ≤ asked) (budget : Budget) :
    engine.Walks (fun taken : Int × Int => .absorbed taken.1 taken.2) (.absorb budget) budget true
      limit asked :=
  ⟨_, concludes engine _ (engine.vault.absorb engine.host) budget,
    fun _ _ _ ahead filled => standing.governed.absorb_settles standing.vault enough limited ahead
      filled⟩

theorem limit_of_liquidate {request : LiquidateRequest}
    (succeeded : ∃ answer, (engine.perform (.liquidate request budget)).reply = .ok answer) :
    ∃ limit, engine.host.limit engine.vault.config.liquidationThreshold = .ok limit := by
  obtain ⟨answer, answered⟩ := succeeded
  obtain ⟨settlement, left, done⟩ := (concludes engine .liquidated
    (engine.vault.liquidate engine.host request) budget).settled_of_ok answered
  obtain ⟨taken, liquidates⟩ := Vault.liquidate_ok done
  obtain ⟨limit, limited, -⟩ := liquidates.took
  exact ⟨limit, limited⟩

theorem Standing.resumes_fill {request : LiquidateRequest} (standing : engine.Standing)
    (charged : budget.charge.1 = true) (mode : request.absorb = false)
    (positive : 0 < request.debt) (minimum : request.minimum = 0) :
    engine.Resumes (.liquidate request .unlimited) (.liquidate request budget)
      (fillRest request) := by
  intro succeeded
  obtain ⟨limit, limited⟩ := limit_of_liquidate succeeded
  have walks := standing.fill_walks mode positive minimum limited
  refine (standing.resumes charged (walks .unlimited) (walks budget) ?_ :
    engine.Resumes _ _ (fillRest request)) succeeded
  intro later pass leads
  by_cases less : pass.debt < request.debt
  · simp only [fillRest, Pass.haul, Bool.false_eq_true, if_false, if_pos less]
    refine leads.standing.fill_walks (by exact mode) ?_ (by exact minimum) ?_ .unlimited
    · dsimp only
      omega
    · rw [leads.limit, leads.config, limited]
  · simp only [fillRest, Pass.haul, Bool.false_eq_true, if_false, if_neg less]
    exact Int.not_lt.mp less

theorem Standing.resumes_sweep {request : LiquidateRequest} (standing : engine.Standing)
    (charged : budget.charge.1 = true)
    (mode : request.absorb = true) (nothing : request.debt = 0) :
    engine.Resumes (.liquidate request .unlimited) (.liquidate request budget)
      (again (.liquidate request .unlimited)) := by
  intro succeeded
  obtain ⟨limit, limited⟩ := limit_of_liquidate succeeded
  have walks := standing.sweep_walks mode nothing limited (Int.le_refl _)
  refine (standing.resumes charged (walks .unlimited) (walks budget) ?_ :
    engine.Resumes _ _ (again _)) succeeded
  intro later pass leads
  exact leads.standing.sweep_walks mode nothing
    (by rw [leads.limit, leads.config, limited]) (Int.le_of_eq leads.debt) .unlimited

theorem Standing.resumes_absorb (standing : engine.Standing) (charged : budget.charge.1 = true) :
    engine.Resumes (.absorb .unlimited) (.absorb budget) (again (.absorb .unlimited)) := by
  intro succeeded
  obtain ⟨answer, answered⟩ := succeeded
  obtain ⟨settlement, left, done⟩ := (concludes engine _
    (engine.vault.absorb engine.host) .unlimited).settled_of_ok answered
  obtain ⟨swept, absorbs⟩ := Vault.absorb_ok done
  obtain ⟨limit, limited, -⟩ := absorbs.swept
  have walks := standing.absorb_walks limited (Int.le_refl _)
  refine (standing.resumes charged (walks .unlimited) (walks budget) ?_ :
    engine.Resumes _ _ (again _)) ⟨answer, answered⟩
  intro later pass leads
  exact leads.standing.absorb_walks (by rw [leads.limit, leads.config, limited])
    (Int.le_of_eq leads.debt) .unlimited

/-- Wherever a budget of one tick or more cuts a liquidation short, a second call without a budget
completes it: a fill for the debt that is left to ask for, and a sweep as it was asked for at
first. -/
theorem run_resumes (new : start.New) (calls : List Call) {n : Int} (positive : 1 ≤ n) :
    (∀ request : LiquidateRequest, request.absorb = false → 0 < request.debt →
      request.minimum = 0 →
      (start.run calls).Resumes (.liquidate request .unlimited) (.liquidate request (.fixed n 0))
        (fillRest request)) ∧
    (start.run calls).Resumes (.absorb .unlimited) (.absorb (.fixed n 0))
      (again (.absorb .unlimited)) ∧
    ∀ request : LiquidateRequest, request.absorb = true → request.debt = 0 →
      (start.run calls).Resumes (.liquidate request .unlimited) (.liquidate request (.fixed n 0))
        (again (.liquidate request .unlimited)) := by
  have standing := new.standing.run calls
  have charged : (Budget.fixed n 0).charge.1 = true := by
    have some_left : ¬ 0 ≥ n := by omega
    simp [Budget.charge, some_left]
  refine ⟨fun request mode asked minimum => standing.resumes_fill charged mode asked minimum,
    standing.resumes_absorb charged, fun request mode nothing =>
      standing.resumes_sweep charged mode nothing⟩

theorem Standing.completes (standing : engine.Standing)
    (unbounded : engine.host.capacity = none) (resumes : engine.Resumes whole cut rest)
    (succeeded : (engine.perform whole).reply.isOk = true) :
    (engine.perform whole).Completes (engine.perform cut)
      ((engine.perform cut).engine.attend (rest (engine.perform cut).haul)) := by
  have succeeded : ∃ reply, (engine.perform whole).reply = .ok reply := by
    cases answered : (engine.perform whole).reply with
    | ok reply => exact ⟨reply, rfl⟩
    | error fault =>
      rw [answered] at succeeded
      cases succeeded
  apply resumes succeeded
  · exact (standing.served unbounded [cut]).1
  · cases rest (engine.perform cut).haul with
    | none => exact fun refused => by cases refused
    | some call => exact (standing.served unbounded [cut, call]).2.1

/-- Two borrowers on two ticks, and a fall of the price that puts both beyond the max limit. -/
def crisis : List Call :=
  [borrower "a",
    .operate {
      position := none
      collateral := 2000000000000000000
      debt := 900000000000000000
      signer := "b" },
    .setOracle 450000000000000]

def raid : LiquidateRequest := { debt := 1500000000000000000 }

def clearance : LiquidateRequest := { debt := 0, absorb := true }

/-- A budget of one tick cuts each liquidation of the crisis between the two ticks. -/
theorem crisis_resumes :
    let engine := standard.run crisis
    let fill := engine.perform (.liquidate raid (.fixed 1 0))
    let absorption := engine.perform (.absorb (.fixed 1 0))
    let sweep := engine.perform (.liquidate clearance (.fixed 1 0))
    standard.New ∧
      (engine.perform (.liquidate raid .unlimited)).Completes fill
        (fill.engine.attend (fillRest raid fill.haul)) ∧
      (fill.engine.attend (fillRest raid fill.haul)).haul.debt = 499333366505013033 ∧
      (engine.perform (.absorb .unlimited)).Completes absorption
        (absorption.engine.attend (again (.absorb .unlimited) absorption.haul)) ∧
      (engine.perform (.liquidate clearance .unlimited)).Completes sweep
        (sweep.engine.attend (again (.liquidate clearance .unlimited) sweep.haul)) := by
  obtain ⟨fills, absorbs, sweeps⟩ := run_resumes standard_new crisis (Int.le_refl 1)
  have standing := standard_new.standing.run crisis
  have unbounded : (standard.run crisis).host.capacity = none := by decide +kernel
  refine ⟨standard_new, ?_, ?_, ?_, ?_⟩
  · exact standing.completes unbounded (fills raid rfl (by decide) rfl) (by decide +kernel)
  · decide +kernel
  · exact standing.completes unbounded absorbs (by decide +kernel)
  · exact standing.completes unbounded (sweeps clearance rfl rfl) (by decide +kernel)

end Engine

end TickVault
