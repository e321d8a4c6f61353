/-
This file follows an escrow through its life. What the four operations and the
expiry do to an escrow is first said as a machine of its own: a move is allowed by
the escrow as it stands, makes some payments and leaves the escrow in another
form or not at all. The machine pays out what was deposited and no more, pays
the fee once, and pays nobody but the depositor before both sides have approved.
The evaluators are then shown to make just these moves, and whatever else the
chain does leaves the escrows alone.
-/

import Zattera.Lib.Trace
import Zattera.Proof.Supply

namespace Zattera

open Program Trace

/-! ### The machine -/

/-- A payment out of an escrow. -/
structure Payment where
  receiver : AccountName
  amount : Asset
  deriving DecidableEq

namespace Escrow

def key (escrow : Escrow) : AccountName × Nat := (escrow.fromAccount, escrow.escrowId)

/-- What comes back to the account that put it up. -/
def refund (escrow : Escrow) : List Payment :=
  [⟨escrow.fromAccount, ⟨escrow.liquidBalance, .liquid⟩⟩,
    ⟨escrow.fromAccount, ⟨escrow.dollarBalance, .dollar⟩⟩]

/-- What is left to be paid out of one of the tokens. -/
def holds (escrow : Escrow) (symbol : AssetSymbol) : Int :=
  (Asset.mk escrow.liquidBalance .liquid).amountIn symbol +
    (Asset.mk escrow.dollarBalance .dollar).amountIn symbol

def approval (escrow : Escrow) (who : AccountName) : Escrow :=
  { escrow with
    toApproved := escrow.toApproved || decide (who = escrow.toAccount)
    agentApproved := escrow.agentApproved || decide (who = escrow.agent) }

/-- The escrow without its fee, once both sides have approved. -/
def ratified (escrow : Escrow) : Escrow :=
  { escrow with
    pendingFee := if escrow.isApproved then ⟨0, escrow.pendingFee.symbol⟩ else escrow.pendingFee }

def released (escrow : Escrow) (o : EscrowReleaseOperation) : Escrow :=
  { escrow with
    liquidBalance := Int64.ofInt (escrow.liquidBalance.toInt - o.liquidAmount.amount.toInt)
    dollarBalance := Int64.ofInt (escrow.dollarBalance.toInt - o.dollarAmount.amount.toInt) }

end Escrow

namespace EscrowTransferOperation

def key (o : EscrowTransferOperation) : AccountName × Nat := (o.fromAccount, o.escrowId)

/-- The escrow that the operation opens. -/
def escrow (o : EscrowTransferOperation) : Escrow where
  escrowId := o.escrowId
  fromAccount := o.fromAccount
  toAccount := o.toAccount
  agent := o.agent
  ratificationDeadline := o.ratificationDeadline
  escrowExpiration := o.escrowExpiration
  dollarBalance := o.dollarAmount.amount
  liquidBalance := o.liquidAmount.amount
  pendingFee := o.fee
  toApproved := false
  agentApproved := false
  disputed := false

def deposit (o : EscrowTransferOperation) (symbol : AssetSymbol) : Int :=
  o.liquidAmount.amountIn symbol + o.dollarAmount.amountIn symbol

theorem amounts_of_validate (o : EscrowTransferOperation) (valid : o.validate = .ok ()) :
    0 ≤ o.liquidAmount.amount.toInt ∧ 0 ≤ o.dollarAmount.amount.toInt ∧
      o.liquidAmount.symbol = .liquid ∧ o.dollarAmount.symbol = .dollar := by
  simp only [EscrowTransferOperation.validate, validateEscrowSymbols, except_bind_eq_ok,
    ensure_eq_ok] at valid
  obtain ⟨_, _, _, _, _, _, _, _, _, dollar, _, liquid, _, _, _, _, _, _, _, symbols, _⟩ := valid
  obtain ⟨_, dollarSymbol, liquidSymbol⟩ := symbols
  exact ⟨Int64.le_iff_toInt_le.mp liquid, Int64.le_iff_toInt_le.mp dollar, liquidSymbol,
    dollarSymbol⟩

end EscrowTransferOperation

theorem EscrowReleaseOperation.nonneg_of_validate (o : EscrowReleaseOperation)
    (valid : o.validate = .ok ()) :
    0 ≤ o.liquidAmount.amount.toInt ∧ 0 ≤ o.dollarAmount.amount.toInt := by
  simp only [EscrowReleaseOperation.validate, except_bind_eq_ok, ensure_eq_ok] at valid
  obtain ⟨_, _, _, _, _, _, _, _, _, _, _, _, _, _, _, dollar, _, liquid, _⟩ := valid
  exact ⟨Int64.le_iff_toInt_le.mp liquid, Int64.le_iff_toInt_le.mp dollar⟩

/-- What can happen to an escrow, with the escrow as it is before. -/
inductive EscrowMove where
  | approve (o : EscrowApproveOperation) (escrow : Escrow)
  | dispute (o : EscrowDisputeOperation) (escrow : Escrow)
  | release (o : EscrowReleaseOperation) (escrow : Escrow)
  | expire (escrow : Escrow)
  deriving DecidableEq

namespace EscrowMove

def escrow : EscrowMove → Escrow
  | approve _ escrow | dispute _ escrow | release _ escrow | expire escrow => escrow

/-- When the move can be made. -/
def Allowed : EscrowMove → Prop
  | approve o escrow => o.who = escrow.toAccount ∧ escrow.toApproved = false ∨
      o.who = escrow.agent ∧ escrow.agentApproved = false
  | dispute _ escrow => escrow.isApproved = true ∧ escrow.disputed = false
  | release o escrow => escrow.isApproved = true ∧
      (o.receiver = escrow.fromAccount ∨ o.receiver = escrow.toAccount) ∧
      (escrow.disputed = true → o.who = escrow.agent) ∧
      (o.liquidAmount.symbol = .liquid ∧ 0 ≤ o.liquidAmount.amount.toInt ∧
        o.liquidAmount.amount.toInt ≤ escrow.liquidBalance.toInt) ∧
      o.dollarAmount.symbol = .dollar ∧ 0 ≤ o.dollarAmount.amount.toInt ∧
        o.dollarAmount.amount.toInt ≤ escrow.dollarBalance.toInt
  | expire escrow => escrow.isApproved = false

/-- What is paid out of the amount that was deposited. -/
def principal : EscrowMove → List Payment
  | approve o escrow => if o.approve then [] else escrow.refund
  | dispute _ _ => []
  | release o _ => [⟨o.receiver, o.liquidAmount⟩, ⟨o.receiver, o.dollarAmount⟩]
  | expire escrow => escrow.refund

/-- What is paid out of the fee. -/
def fees : EscrowMove → List Payment
  | approve o escrow =>
    if o.approve then
      if (escrow.approval o.who).isApproved then [⟨escrow.agent, escrow.pendingFee⟩] else []
    else [⟨escrow.fromAccount, escrow.pendingFee⟩]
  | dispute _ _ => []
  | release _ _ => []
  | expire escrow => [⟨escrow.fromAccount, escrow.pendingFee⟩]

def payments (move : EscrowMove) : List Payment := move.principal ++ move.fees

/-- What becomes of the escrow. -/
def leaves : EscrowMove → Option Escrow
  | approve o escrow => if o.approve then some (escrow.approval o.who).ratified else none
  | dispute _ escrow => some { escrow with disputed := true }
  | release o escrow =>
    if (escrow.released o).liquidBalance = 0 ∧ (escrow.released o).dollarBalance = 0 then none
    else some (escrow.released o)
  | expire _ => none

/-- The move is the approval of an account. -/
def Approves (name : AccountName) : EscrowMove → Prop
  | approve o _ => o.approve = true ∧ o.who = name
  | _ => False

def Disputes : EscrowMove → Prop
  | dispute _ _ => True
  | _ => False

end EscrowMove

/-- The machine: an escrow that is there makes a move that is allowed. -/
inductive EscrowMove.Takes : Option Escrow → Option EscrowMove → Option Escrow → Prop
  | made {move : EscrowMove} (allowed : move.Allowed) :
      EscrowMove.Takes (some move.escrow) (some move) move.leaves

/-- The life of an escrow: the moves that were made, and the escrow as it is after them. -/
abbrev EscrowLife (o : EscrowTransferOperation) : List EscrowMove → Option Escrow → Prop :=
  Run EscrowMove.Takes (some o.escrow)

section Moves

variable {moves before : List EscrowMove} {o : EscrowTransferOperation} {escrow : Escrow}

def ApprovedBy (moves : List EscrowMove) (name : AccountName) : Prop :=
  ∃ move ∈ moves, move.Approves name

def Disputed (moves : List EscrowMove) : Prop := ∃ move ∈ moves, move.Disputes

theorem approvedBy_concat {move : EscrowMove} {name : AccountName} :
    ApprovedBy (moves ++ [move]) name ↔ ApprovedBy moves name ∨ move.Approves name := by
  simp only [ApprovedBy, List.mem_append, List.mem_singleton, or_and_right, exists_or,
    exists_eq_left]

theorem disputed_concat {move : EscrowMove} :
    Disputed (moves ++ [move]) ↔ Disputed moves ∨ move.Disputes := by
  simp only [Disputed, List.mem_append, List.mem_singleton, or_and_right, exists_or,
    exists_eq_left]

/-- The sum of the payments that are made in one of the tokens. -/
def paidIn (payments : List Payment) (symbol : AssetSymbol) : Int :=
  (payments.map fun payment => payment.amount.amountIn symbol).sum

theorem paidIn_append (first second : List Payment) (symbol : AssetSymbol) :
    paidIn (first ++ second) symbol = paidIn first symbol + paidIn second symbol := by
  unfold paidIn
  rw [List.map_append, List.sum_append]

theorem Escrow.paidIn_refund (escrow : Escrow) (symbol : AssetSymbol) :
    paidIn escrow.refund symbol = escrow.holds symbol := by
  unfold paidIn refund holds
  rw [List.map_cons, List.map_singleton, List.sum_cons, List.sum_singleton]

/-- What is known of an escrow after some moves. -/
structure Escrow.Tracks (o : EscrowTransferOperation) (moves : List EscrowMove) (escrow : Escrow) :
    Prop where
  key : escrow.key = o.key
  toAccount : escrow.toAccount = o.toAccount
  agent : escrow.agent = o.agent
  toApproved : escrow.toApproved = true ↔ ApprovedBy moves o.toAccount
  agentApproved : escrow.agentApproved = true ↔ ApprovedBy moves o.agent
  disputed : escrow.disputed = true ↔ Disputed moves
  ratified : escrow.disputed = true → escrow.isApproved = true
  fees : moves.flatMap EscrowMove.fees =
    if escrow.isApproved then [⟨o.agent, o.fee⟩] else []
  pending : escrow.isApproved = false → escrow.pendingFee = o.fee
  liquid : 0 ≤ escrow.liquidBalance.toInt
  dollar : 0 ≤ escrow.dollarBalance.toInt
  paid : ∀ symbol, paidIn (moves.flatMap EscrowMove.principal) symbol + escrow.holds symbol =
    o.deposit symbol

namespace Escrow.Tracks

theorem fromAccount (tracks : escrow.Tracks o moves) : escrow.fromAccount = o.fromAccount :=
  congrArg Prod.fst tracks.key

/-- Both sides have approved an escrow exactly when both approvals were made. -/
theorem isApproved_iff (tracks : escrow.Tracks o moves) :
    escrow.isApproved = true ↔ ApprovedBy moves o.toAccount ∧ ApprovedBy moves o.agent := by
  rw [isApproved, Bool.and_eq_true, tracks.toApproved, tracks.agentApproved]

theorem opened (valid : o.validate = .ok ()) : o.escrow.Tracks o [] := by
  obtain ⟨liquid, dollar, liquidSymbol, dollarSymbol⟩ := o.amounts_of_validate valid
  refine ⟨rfl, rfl, rfl, ?_, ?_, ?_, fun disputed => absurd disputed Bool.false_ne_true, rfl,
    fun _ => rfl, liquid, dollar, fun symbol => ?_⟩
  · exact ⟨fun approved => absurd approved Bool.false_ne_true, fun ⟨_, member, _⟩ =>
      absurd member List.not_mem_nil⟩
  · exact ⟨fun approved => absurd approved Bool.false_ne_true, fun ⟨_, member, _⟩ =>
      absurd member List.not_mem_nil⟩
  · exact ⟨fun disputed => absurd disputed Bool.false_ne_true, fun ⟨_, member, _⟩ =>
      absurd member List.not_mem_nil⟩
  · have both : o.escrow.holds symbol = o.deposit symbol := by
      unfold holds EscrowTransferOperation.deposit
      rw [← liquidSymbol, ← dollarSymbol]
      rfl
    rw [both]
    exact zero_add _

/-- Before the second approval an escrow is not approved. -/
theorem unapproved {op : EscrowApproveOperation}
    (allowed : (EscrowMove.approve op escrow).Allowed) : escrow.isApproved = false := by
  unfold isApproved
  rcases allowed with ⟨_, missing⟩ | ⟨_, missing⟩
  · rw [missing, Bool.false_and]
  · rw [missing, Bool.and_false]

theorem approved {op : EscrowApproveOperation} (tracks : escrow.Tracks o moves)
    (allowed : (EscrowMove.approve op escrow).Allowed) (approve : op.approve = true) :
    (escrow.approval op.who).ratified.Tracks o (moves ++ [.approve op escrow]) where
  key := tracks.key
  toAccount := tracks.toAccount
  agent := tracks.agent
  toApproved := by
    rw [approvedBy_concat, ← tracks.toApproved]
    simp only [Escrow.ratified, approval, EscrowMove.Approves, Bool.or_eq_true, decide_eq_true_eq,
      approve, tracks.toAccount, true_and]
  agentApproved := by
    rw [approvedBy_concat, ← tracks.agentApproved]
    simp only [Escrow.ratified, approval, EscrowMove.Approves, Bool.or_eq_true, decide_eq_true_eq,
      approve, tracks.agent, true_and]
  disputed := tracks.disputed.trans (disputed_concat.trans (or_iff_left id)).symm
  ratified disputed :=
    absurd (tracks.ratified disputed) (Bool.eq_false_iff.mp (unapproved allowed))
  fees := by
    have none_ := tracks.fees
    rw [unapproved allowed, if_neg Bool.false_ne_true] at none_
    rw [List.flatMap_append, none_, List.flatMap_singleton, List.nil_append, EscrowMove.fees,
      if_pos approve, tracks.agent, tracks.pending (unapproved allowed)]
    rfl
  pending missing := (if_neg (Bool.eq_false_iff.mp missing)).trans
    (tracks.pending (unapproved allowed))
  liquid := tracks.liquid
  dollar := tracks.dollar
  paid symbol := by
    rw [List.flatMap_append, List.flatMap_singleton, EscrowMove.principal, if_pos approve,
      List.append_nil]
    exact tracks.paid symbol

theorem contested {op : EscrowDisputeOperation} (tracks : escrow.Tracks o moves)
    (allowed : (EscrowMove.dispute op escrow).Allowed) :
    ({ escrow with disputed := true } : Escrow).Tracks o (moves ++ [.dispute op escrow]) where
  key := tracks.key
  toAccount := tracks.toAccount
  agent := tracks.agent
  toApproved := tracks.toApproved.trans (approvedBy_concat.trans (or_iff_left id)).symm
  agentApproved := tracks.agentApproved.trans (approvedBy_concat.trans (or_iff_left id)).symm
  disputed := iff_of_true rfl (disputed_concat.mpr (.inr trivial))
  ratified _ := allowed.1
  fees := by
    rw [List.flatMap_append, List.flatMap_singleton, EscrowMove.fees, List.append_nil]
    exact tracks.fees
  pending := tracks.pending
  liquid := tracks.liquid
  dollar := tracks.dollar
  paid symbol := by
    rw [List.flatMap_append, List.flatMap_singleton, EscrowMove.principal, List.append_nil]
    exact tracks.paid symbol

section Release

variable {op : EscrowReleaseOperation}

theorem toInt_liquid_released (allowed : (EscrowMove.release op escrow).Allowed) :
    (escrow.released op).liquidBalance.toInt =
      escrow.liquidBalance.toInt - op.liquidAmount.amount.toInt := by
  obtain ⟨_, _, _, ⟨_, nonneg, le⟩, _⟩ := allowed
  have upper := escrow.liquidBalance.toInt_lt
  exact Int64.toInt_ofInt_of_le (by omega) (by omega)

theorem toInt_dollar_released (allowed : (EscrowMove.release op escrow).Allowed) :
    (escrow.released op).dollarBalance.toInt =
      escrow.dollarBalance.toInt - op.dollarAmount.amount.toInt := by
  obtain ⟨_, _, _, _, _, nonneg, le⟩ := allowed
  have upper := escrow.dollarBalance.toInt_lt
  exact Int64.toInt_ofInt_of_le (by omega) (by omega)

/-- A release pays what it takes off the escrow. -/
theorem holds_released (allowed : (EscrowMove.release op escrow).Allowed) (symbol : AssetSymbol) :
    paidIn (EscrowMove.release op escrow).principal symbol + (escrow.released op).holds symbol =
      escrow.holds symbol := by
  have liquid := toInt_liquid_released allowed
  have dollar := toInt_dollar_released allowed
  obtain ⟨_, _, _, ⟨liquidSymbol, _⟩, dollarSymbol, _⟩ := allowed
  simp only [paidIn, EscrowMove.principal, holds, Asset.amountIn, liquidSymbol, dollarSymbol,
    List.map_cons, List.map_nil, List.sum_cons, List.sum_nil, liquid, dollar]
  split <;> split <;> omega

theorem released (tracks : escrow.Tracks o moves)
    (allowed : (EscrowMove.release op escrow).Allowed) :
    (escrow.released op).Tracks o (moves ++ [.release op escrow]) where
  key := tracks.key
  toAccount := tracks.toAccount
  agent := tracks.agent
  toApproved := tracks.toApproved.trans (approvedBy_concat.trans (or_iff_left id)).symm
  agentApproved := tracks.agentApproved.trans (approvedBy_concat.trans (or_iff_left id)).symm
  disputed := tracks.disputed.trans (disputed_concat.trans (or_iff_left id)).symm
  ratified := tracks.ratified
  fees := by
    rw [List.flatMap_append, List.flatMap_singleton, EscrowMove.fees, List.append_nil]
    exact tracks.fees
  pending := tracks.pending
  liquid := by
    rw [toInt_liquid_released allowed]
    exact Int.sub_nonneg_of_le allowed.2.2.2.1.2.2
  dollar := by
    rw [toInt_dollar_released allowed]
    exact Int.sub_nonneg_of_le allowed.2.2.2.2.2.2
  paid symbol := by
    rw [List.flatMap_append, List.flatMap_singleton, paidIn_append, add_assoc,
      holds_released allowed]
    exact tracks.paid symbol

end Release

end Escrow.Tracks

/-- What is known of an escrow is known after every move. -/
theorem Escrow.Tracks.next {move : EscrowMove} (tracks : move.escrow.Tracks o moves)
    (allowed : move.Allowed) : ∀ escrow ∈ move.leaves, escrow.Tracks o (moves ++ [move]) := by
  cases move with
  | approve op escrow =>
    rw [EscrowMove.leaves]
    split
    · next approve =>
      rintro _ ⟨⟩
      exact tracks.approved allowed approve
    · rintro _ ⟨⟩
  | dispute op escrow =>
    rintro _ ⟨⟩
    exact tracks.contested allowed
  | release op escrow =>
    rw [EscrowMove.leaves]
    split
    · rintro _ ⟨⟩
    · rintro _ ⟨⟩
      exact tracks.released allowed
  | expire escrow => rintro _ ⟨⟩

theorem EscrowLife.tracks {current : Option Escrow} (valid : o.validate = .ok ())
    (life : EscrowLife o moves current) : ∀ escrow ∈ current, escrow.Tracks o moves := by
  induction life with
  | start =>
    rintro escrow ⟨⟩
    exact .opened valid
  | silent _ step => cases step
  | event _ step inductionHypothesis =>
    obtain ⟨allowed⟩ := step
    exact (inductionHypothesis _ rfl).next allowed

/-- What is to be said of an escrow, by the moves that were made since it was opened and what has
become of it. -/
structure EscrowTransferOperation.Settled (o : EscrowTransferOperation) (moves : List EscrowMove)
    (current : Option Escrow) : Prop where
  /-- No more than the deposit is paid out -/
  atMost : ∀ symbol, paidIn (moves.flatMap EscrowMove.principal) symbol ≤ o.deposit symbol
  /-- and all of it once the escrow is gone, -/
  whole : current = none →
    ∀ symbol, paidIn (moves.flatMap EscrowMove.principal) symbol = o.deposit symbol
  /-- to the two parties. -/
  parties : ∀ payment ∈ moves.flatMap EscrowMove.principal,
    payment.receiver = o.fromAccount ∨ payment.receiver = o.toAccount
  /-- The fee goes once to the agent when both have approved, -/
  feePaid : ApprovedBy moves o.toAccount ∧ ApprovedBy moves o.agent →
    moves.flatMap EscrowMove.fees = [⟨o.agent, o.fee⟩]
  /-- and otherwise back when the escrow goes, -/
  feeBack : ¬ (ApprovedBy moves o.toAccount ∧ ApprovedBy moves o.agent) → current = none →
    moves.flatMap EscrowMove.fees = [⟨o.fromAccount, o.fee⟩]
  /-- and nowhere before that. -/
  feePending : ¬ (ApprovedBy moves o.toAccount ∧ ApprovedBy moves o.agent) → current ≠ none →
    moves.flatMap EscrowMove.fees = []
  /-- Before both have approved, what is paid out goes back. -/
  approval : ∀ before move after, moves = before ++ move :: after →
    ¬ (ApprovedBy before o.toAccount ∧ ApprovedBy before o.agent) →
      ∀ payment ∈ move.principal, payment.receiver = o.fromAccount
  /-- After a dispute only the agent releases funds, to one of the two parties. -/
  dispute : ∀ before move after, moves = before ++ move :: after → Disputed before →
    move.payments ≠ [] → ∃ op escrow, move = .release op escrow ∧ op.who = o.agent ∧
      ∀ payment ∈ move.payments,
        payment.receiver = o.fromAccount ∨ payment.receiver = o.toAccount

theorem Escrow.receiver_refund {payment : Payment} (member : payment ∈ escrow.refund) :
    payment.receiver = escrow.fromAccount := by
  simp only [refund, List.mem_cons, List.not_mem_nil, or_false] at member
  rcases member with rfl | rfl <;> rfl

namespace EscrowMove

variable {move : EscrowMove}

/-- A payment out of the deposit goes back, unless it is released with both approvals. -/
theorem receiver_principal (tracks : move.escrow.Tracks o before) (allowed : move.Allowed)
    {payment : Payment} (member : payment ∈ move.principal) :
    payment.receiver = o.fromAccount ∨
      payment.receiver = o.toAccount ∧ move.escrow.isApproved = true := by
  cases move with
  | approve op escrow =>
    rw [principal] at member
    split at member
    · exact absurd member List.not_mem_nil
    · exact .inl ((Escrow.receiver_refund member).trans tracks.fromAccount)
  | dispute op escrow => exact absurd member List.not_mem_nil
  | release op escrow =>
    obtain ⟨approved, receiver, _⟩ := allowed
    have same : payment.receiver = op.receiver := by
      simp only [principal, List.mem_cons, List.not_mem_nil, or_false] at member
      rcases member with rfl | rfl <;> rfl
    rw [same, ← tracks.fromAccount, ← tracks.toAccount]
    exact receiver.imp_right fun isTo => ⟨isTo, approved⟩
  | expire escrow => exact .inl ((Escrow.receiver_refund member).trans tracks.fromAccount)

/-- A disputed escrow pays nothing but what its agent releases. -/
theorem release_of_disputed (tracks : move.escrow.Tracks o before) (allowed : move.Allowed)
    (disputed : Disputed before) (paying : move.payments ≠ []) :
    ∃ op escrow, move = .release op escrow ∧ op.who = o.agent := by
  have contested := tracks.disputed.mpr disputed
  have approved := tracks.ratified contested
  cases move with
  | approve op escrow =>
    exact absurd approved (Bool.eq_false_iff.mp (Escrow.Tracks.unapproved allowed))
  | dispute op escrow => exact absurd rfl paying
  | release op escrow =>
    obtain ⟨_, _, byAgent, _⟩ := allowed
    exact ⟨op, escrow, rfl, (byAgent contested).trans tracks.agent⟩
  | expire escrow => exact absurd approved (Bool.eq_false_iff.mp allowed)

/-- A move after which the escrow is gone has paid out all of it. -/
theorem paid_of_gone (allowed : move.Allowed) (gone : move.leaves = none) (symbol : AssetSymbol) :
    paidIn move.principal symbol = move.escrow.holds symbol := by
  cases move with
  | approve op escrow =>
    rw [leaves] at gone
    split at gone
    · cases gone
    · next rejected =>
      rw [principal, if_neg rejected]
      exact escrow.paidIn_refund symbol
  | dispute op escrow => cases gone
  | release op escrow =>
    rw [leaves] at gone
    split at gone
    · next empty =>
      have exact_ := Escrow.Tracks.holds_released allowed symbol
      have nothing : (escrow.released op).holds symbol = 0 := by
        unfold Escrow.holds
        rw [empty.1, empty.2]
        cases symbol <;> rfl
      rw [nothing, add_zero] at exact_
      exact exact_
    · cases gone
  | expire escrow => exact escrow.paidIn_refund symbol

/-- The fee of an escrow that goes without both approvals comes back. -/
theorem fees_of_gone (tracks : move.escrow.Tracks o before) (allowed : move.Allowed)
    (gone : move.leaves = none) :
    (before ++ [move]).flatMap fees =
      if move.escrow.isApproved then [⟨o.agent, o.fee⟩] else [⟨o.fromAccount, o.fee⟩] := by
  rw [List.flatMap_append, tracks.fees, List.flatMap_singleton]
  cases move with
  | approve op escrow =>
    rw [leaves] at gone
    split at gone
    · cases gone
    · next rejected =>
      have missing := Escrow.Tracks.unapproved allowed
      change (if escrow.isApproved then _ else _) ++ _ = if escrow.isApproved then _ else _
      rw [fees, if_neg rejected, missing, ← tracks.fromAccount, ← tracks.pending missing]
      rfl
  | dispute op escrow => cases gone
  | release op escrow =>
    have approved : escrow.isApproved = true := allowed.1
    change (if escrow.isApproved then _ else _) ++ _ = if escrow.isApproved then _ else _
    rw [approved]
    rfl
  | expire escrow =>
    have missing : escrow.isApproved = false := allowed
    change (if escrow.isApproved then _ else _) ++ _ = if escrow.isApproved then _ else _
    rw [fees, missing, ← tracks.fromAccount, ← tracks.pending missing]
    rfl

/-- A move after which the escrow is gone is nobody's approval. -/
theorem not_approves_of_gone (gone : move.leaves = none) (name : AccountName) :
    ¬ move.Approves name := by
  cases move with
  | approve op escrow =>
    rintro ⟨approve, _⟩
    rw [leaves, if_pos approve] at gone
    cases gone
  | _ => exact id

end EscrowMove

section Life

variable {current : Option Escrow}

/-- The last move of an escrow that is gone. -/
theorem EscrowLife.last (life : EscrowLife o moves current) (gone : current = none) :
    ∃ before move, moves = before ++ [move] ∧ EscrowLife o before (some move.escrow) ∧
      move.Allowed ∧ move.leaves = none := by
  cases life with
  | start => cases gone
  | silent _ step => cases step
  | event earlier step =>
    obtain ⟨allowed⟩ := step
    exact ⟨_, _, rfl, earlier, allowed, gone⟩

/-- What was paid out and what is left is what was deposited. -/
theorem EscrowLife.paid (valid : o.validate = .ok ()) (life : EscrowLife o moves current)
    (symbol : AssetSymbol) : paidIn (moves.flatMap EscrowMove.principal) symbol +
      current.elim 0 (fun escrow => escrow.holds symbol) = o.deposit symbol := by
  cases current with
  | none =>
    obtain ⟨before, move, rfl, earlier, allowed, gone⟩ := life.last rfl
    have tracks := EscrowLife.tracks valid earlier _ rfl
    rw [List.flatMap_append, List.flatMap_singleton, paidIn_append,
      EscrowMove.paid_of_gone allowed gone, tracks.paid]
    exact add_zero _
  | some escrow => exact (EscrowLife.tracks valid life escrow rfl).paid symbol

theorem Escrow.Tracks.holds_nonneg (tracks : escrow.Tracks o moves) (symbol : AssetSymbol) :
    0 ≤ escrow.holds symbol := by
  have liquid := tracks.liquid
  have dollar := tracks.dollar
  simp only [holds, Asset.amountIn]
  split <;> split <;> omega

/-- The fee, by the approvals and whether the escrow is gone. -/
theorem EscrowLife.fees (valid : o.validate = .ok ()) (life : EscrowLife o moves current) :
    (ApprovedBy moves o.toAccount ∧ ApprovedBy moves o.agent →
        moves.flatMap EscrowMove.fees = [⟨o.agent, o.fee⟩]) ∧
      (¬ (ApprovedBy moves o.toAccount ∧ ApprovedBy moves o.agent) →
        moves.flatMap EscrowMove.fees = current.elim [⟨o.fromAccount, o.fee⟩] fun _ => []) := by
  cases current with
  | none =>
    obtain ⟨before, move, rfl, earlier, allowed, gone⟩ := life.last rfl
    have tracks := EscrowLife.tracks valid earlier _ rfl
    -- the last move approves nothing
    have same : ApprovedBy (before ++ [move]) o.toAccount ∧ ApprovedBy (before ++ [move]) o.agent ↔
        move.escrow.isApproved = true := by
      rw [tracks.isApproved_iff, approvedBy_concat, approvedBy_concat,
        or_iff_left (EscrowMove.not_approves_of_gone gone _),
        or_iff_left (EscrowMove.not_approves_of_gone gone _)]
    rw [same, EscrowMove.fees_of_gone tracks allowed gone]
    exact ⟨fun approved => if_pos approved, fun missing => if_neg missing⟩
  | some escrow =>
    have tracks := EscrowLife.tracks valid life escrow rfl
    rw [← tracks.isApproved_iff, tracks.fees]
    exact ⟨fun approved => if_pos approved, fun missing => if_neg missing⟩

theorem EscrowLife.settled (valid : o.validate = .ok ()) (life : EscrowLife o moves current) :
    o.Settled moves current := by
  have paid := life.paid valid
  obtain ⟨feePaid, feeKept⟩ := life.fees valid
  -- what is known where a move is made
  have known {before after : List EscrowMove} {move : EscrowMove}
      (split : moves = before ++ move :: after) :
      move.escrow.Tracks o before ∧ move.Allowed := by
    rw [split] at life
    obtain ⟨_, _, earlier, ⟨allowed⟩, _⟩ := life.split
    exact ⟨EscrowLife.tracks valid earlier _ rfl, allowed⟩
  refine ⟨fun symbol => ?_, ?_, ?_, feePaid, ?_, ?_, ?_, ?_⟩
  · have left : 0 ≤ current.elim 0 (fun escrow => escrow.holds symbol) := by
      cases current with
      | none => exact le_rfl
      | some escrow => exact (EscrowLife.tracks valid life escrow rfl).holds_nonneg symbol
    have whole := paid symbol
    omega
  · rintro rfl symbol
    exact (add_zero _).symm.trans (paid symbol)
  · intro payment member
    obtain ⟨move, listed, member⟩ := List.mem_flatMap.mp member
    obtain ⟨before, after, split⟩ := List.append_of_mem listed
    obtain ⟨tracks, allowed⟩ := known split
    exact (EscrowMove.receiver_principal tracks allowed member).imp_right And.left
  · rintro missing rfl
    exact feeKept missing
  · intro missing present
    obtain ⟨escrow, rfl⟩ := Option.ne_none_iff_exists'.mp present
    exact feeKept missing
  · intro before move after split missing payment member
    obtain ⟨tracks, allowed⟩ := known split
    rw [← tracks.isApproved_iff] at missing
    exact (EscrowMove.receiver_principal tracks allowed member).resolve_right fun released =>
      missing released.2
  · intro before move after split disputed paying
    obtain ⟨tracks, allowed⟩ := known split
    obtain ⟨op, escrow, rfl, byAgent⟩ :=
      EscrowMove.release_of_disputed tracks allowed disputed paying
    refine ⟨op, escrow, rfl, byAgent, fun payment member => ?_⟩
    rw [EscrowMove.payments, EscrowMove.fees, List.append_nil] at member
    exact (EscrowMove.receiver_principal tracks allowed member).imp_right And.left

end Life

end Moves

/-! ### The evaluators -/

inductive EscrowEvent where
  | opened (o : EscrowTransferOperation)
  | moved (move : EscrowMove)
  deriving DecidableEq

/-- What takes the escrows from one state to the next: one of the four operations, or the expiry of
an escrow that is not approved. -/
inductive EscrowStep : ChainState → Option EscrowEvent → ChainState → Prop
  | transfer {s t : ChainState} {o : EscrowTransferOperation} (valid : o.validate = .ok ())
      (run : escrowTransferEvaluator o s = .ok () t) : EscrowStep s (some (.opened o)) t
  | approve {s t : ChainState} {o : EscrowApproveOperation} {escrow : Escrow}
      (valid : o.validate = .ok ()) (found : s.escrows.find? (o.fromAccount, o.escrowId) = some escrow)
      (run : escrowApproveEvaluator o s = .ok () t) :
      EscrowStep s (some (.moved (.approve o escrow))) t
  | dispute {s t : ChainState} {o : EscrowDisputeOperation} {escrow : Escrow}
      (valid : o.validate = .ok ()) (found : s.escrows.find? (o.fromAccount, o.escrowId) = some escrow)
      (run : escrowDisputeEvaluator o s = .ok () t) :
      EscrowStep s (some (.moved (.dispute o escrow))) t
  | release {s t : ChainState} {o : EscrowReleaseOperation} {escrow : Escrow}
      (valid : o.validate = .ok ()) (found : s.escrows.find? (o.fromAccount, o.escrowId) = some escrow)
      (run : escrowReleaseEvaluator o s = .ok () t) :
      EscrowStep s (some (.moved (.release o escrow))) t
  | expire {s t : ChainState} {escrow : Escrow} (found : s.escrows.find? escrow.key = some escrow)
      (unapproved : escrow.isApproved = false) (run : refundEscrow escrow s = .ok () t) :
      EscrowStep s (some (.moved (.expire escrow))) t
  | other {s t : ChainState} (same : t.escrows = s.escrows) : EscrowStep s none t

abbrev EscrowRun : ChainState → List EscrowEvent → ChainState → Prop := Run EscrowStep

def payAll (payments : List Payment) : Chain Unit :=
  forM payments fun payment => adjustBalance payment.receiver payment.amount

/-- What a move does to the table of escrows. -/
def EscrowMove.book (move : EscrowMove)
    (escrows : Table (AccountName × Nat) Escrow fun escrow => (escrow.fromAccount, escrow.escrowId)) :
    Table (AccountName × Nat) Escrow fun escrow => (escrow.fromAccount, escrow.escrowId) :=
  match move.leaves with
  | some left => escrows.replace left
  | none => escrows.erase move.escrow.key

/-- The move as it is made in the chain's state: apart from what it does to the table of escrows, all
that happens is that its payments are made. -/
structure EscrowMove.Happens (move : EscrowMove) (s t : ChainState) : Prop where
  found : s.escrows.find? move.escrow.key = some move.escrow
  book : t.escrows = move.book s.escrows
  paid : ∃ first last, payAll move.payments { s with escrows := first } =
    .ok () { t with escrows := last }

section Evaluators

variable {s t u : ChainState}

theorem payAll_nil : payAll [] s = .ok () s := rfl

theorem payAll_cons {payment : Payment} {rest : List Payment} {v : Unit}
    (first : adjustBalance payment.receiver payment.amount s = .ok v u)
    (later : payAll rest u = .ok () t) : payAll (payment :: rest) s = .ok () t :=
  bind_eq_ok.mpr ⟨v, u, first, later⟩

theorem EscrowMove.book_of_some {move : EscrowMove} {left : Escrow} (leaves : move.leaves = some left) :
    move.book s.escrows = s.escrows.replace left := by
  unfold book
  rw [leaves]

theorem EscrowMove.book_of_none {move : EscrowMove} (leaves : move.leaves = none) :
    move.book s.escrows = s.escrows.erase move.escrow.key := by
  unfold book
  rw [leaves]

theorem happens_refund {move : EscrowMove} {v : Unit}
    (found : s.escrows.find? move.escrow.key = some move.escrow) (gone : move.leaves = none)
    (payments : move.payments = move.escrow.refund ++
      [⟨move.escrow.fromAccount, move.escrow.pendingFee⟩])
    (run : refundEscrow move.escrow s = .ok v t) : move.Happens s t := by
  simp only [refundEscrow, bind_eq_ok] at run
  obtain ⟨_, _, liquid, _, _, dollars, _, paid, fee, erased⟩ := run
  obtain rfl := modify_eq_ok.mp erased
  have same : paid.escrows = s.escrows := by
    rw [keptField ChainState.escrows (fun _ => rfl) fee,
      keptField ChainState.escrows (fun _ => rfl) dollars,
      keptField ChainState.escrows (fun _ => rfl) liquid]
  refine ⟨found, ?_, s.escrows, paid.escrows, ?_⟩
  · rw [EscrowMove.book_of_none gone, ← same]
    rfl
  · rw [payments]
    exact payAll_cons liquid (payAll_cons dollars (payAll_cons fee payAll_nil))

theorem Escrow.approvedBy_eq {escrow approved : Escrow} {who toAccount agent : AccountName}
    {approve : Bool} (isTo : escrow.toAccount = toAccount) (isAgent : escrow.agent = agent)
    (made : escrow.approvedBy who toAccount agent approve = .ok approved) :
    ¬ (who = escrow.toAccount ∧ escrow.toApproved = true) ∧
      ¬ (who = escrow.agent ∧ escrow.agentApproved = true) ∧
      approved = if approve then escrow.approval who else escrow := by
  subst isTo isAgent
  simp only [Escrow.approvedBy, except_bind_eq_ok, ensure_eq_ok, except_pure_eq_ok] at made
  obtain ⟨_, notTo, _, notAgent, rfl⟩ := made
  refine ⟨notTo, notAgent, ?_⟩
  cases approve <;> simp [approval]

theorem EscrowMove.allowed_of_approve {o : EscrowApproveOperation} {escrow : Escrow}
    (isTo : escrow.toAccount = o.toAccount) (isAgent : escrow.agent = o.agent)
    (valid : o.validate = .ok ()) (notTo : ¬ (o.who = escrow.toAccount ∧ escrow.toApproved = true))
    (notAgent : ¬ (o.who = escrow.agent ∧ escrow.agentApproved = true)) :
    (EscrowMove.approve o escrow).Allowed := by
  simp only [EscrowApproveOperation.validate, except_bind_eq_ok, ensure_eq_ok] at valid
  obtain ⟨_, _, _, _, _, _, _, _, isWho⟩ := valid
  rw [← isTo, ← isAgent] at isWho
  refine isWho.imp (fun isWho => ⟨isWho, ?_⟩) fun isWho => ⟨isWho, ?_⟩
  · exact Bool.eq_false_iff.mpr fun approved => notTo ⟨isWho, approved⟩
  · exact Bool.eq_false_iff.mpr fun approved => notAgent ⟨isWho, approved⟩

theorem Escrow.ratified_of_approved {escrow : Escrow} (approved : escrow.isApproved = true) :
    escrow.ratified = { escrow with pendingFee := ⟨0, escrow.pendingFee.symbol⟩ } := by
  unfold ratified
  rw [if_pos approved]

theorem Escrow.ratified_of_unapproved {escrow : Escrow} (missing : ¬ escrow.isApproved = true) :
    escrow.ratified = escrow := by
  unfold ratified
  rw [if_neg missing]

theorem happens_approve {o : EscrowApproveOperation} {escrow : Escrow} (valid : o.validate = .ok ())
    (found : s.escrows.find? (o.fromAccount, o.escrowId) = some escrow)
    (run : escrowApproveEvaluator o s = .ok () t) :
    (EscrowMove.approve o escrow).Allowed ∧ (EscrowMove.approve o escrow).Happens s t := by
  simp only [escrowApproveEvaluator, Escrow.requireParties, bind_eq_ok, getEscrow_eq_ok,
    headBlockTime_eq_ok, require_eq_ok, lift_eq_ok, and_assoc, exists_and_left, exists_eq_left',
    exists_const] at run
  obtain ⟨_, found', isTo, isAgent, _, approved, made, _, _, put, rest⟩ := run
  obtain rfl := Option.some.inj (found.symm.trans found')
  obtain ⟨notTo, notAgent, rfl⟩ := Escrow.approvedBy_eq isTo isAgent made
  obtain rfl := modify_eq_ok.mp put
  rw [← key_of_find_escrow found] at found
  refine ⟨EscrowMove.allowed_of_approve isTo isAgent valid notTo notAgent, ?_⟩
  cases approve : o.approve with
  | true =>
    have leaves : (EscrowMove.approve o escrow).leaves = some (escrow.approval o.who).ratified :=
      if_pos approve
    rw [approve, if_pos rfl, if_neg (Bool.false_ne_true ∘ Eq.symm)] at rest
    rcases whenever_eq_ok.mp rest with ⟨both, paying⟩ | ⟨missing, rfl⟩
    · obtain ⟨_, paid, fee, cleared⟩ := bind_eq_ok.mp paying
      obtain rfl := modify_eq_ok.mp cleared
      have same : paid.escrows = s.escrows.replace (escrow.approval o.who) :=
        keptField ChainState.escrows (fun _ => rfl) fee
      refine ⟨found, ?_, s.escrows.replace (escrow.approval o.who), paid.escrows, ?_⟩
      · rw [EscrowMove.book_of_some leaves, Escrow.ratified_of_approved both]
        change paid.escrows.replace _ = _
        rw [same]
        exact Table.replace_replace rfl
      · rw [EscrowMove.payments, EscrowMove.principal, if_pos approve, EscrowMove.fees,
          if_pos approve, if_pos both, isAgent]
        exact payAll_cons fee payAll_nil
    · refine ⟨found, ?_, s.escrows, s.escrows, ?_⟩
      · rw [EscrowMove.book_of_some leaves, Escrow.ratified_of_unapproved missing]
      · rw [EscrowMove.payments, EscrowMove.principal, if_pos approve, EscrowMove.fees,
          if_pos approve, if_neg missing]
        rfl
  | false =>
    have rejected : ¬ o.approve = true := Bool.eq_false_iff.mp approve
    rw [approve, if_neg Bool.false_ne_true, if_pos rfl, Table.replace_of_find? found] at rest
    refine @happens_refund s t (.approve o escrow) () found (if_neg rejected) ?_ rest
    rw [EscrowMove.payments, EscrowMove.principal, if_neg rejected, EscrowMove.fees, if_neg rejected]
    rfl

theorem happens_dispute {o : EscrowDisputeOperation} {escrow : Escrow}
    (found : s.escrows.find? (o.fromAccount, o.escrowId) = some escrow)
    (run : escrowDisputeEvaluator o s = .ok () t) :
    (EscrowMove.dispute o escrow).Allowed ∧ (EscrowMove.dispute o escrow).Happens s t := by
  simp only [escrowDisputeEvaluator, bind_eq_ok, discard_eq_ok, getAccount_eq_ok, getEscrow_eq_ok,
    headBlockTime_eq_ok, require_eq_ok, and_assoc, exists_and_left, exists_and_right,
    exists_eq_left', exists_const] at run
  obtain ⟨_, _, found', _, approved, undisputed, _, _, parties, put⟩ := run
  obtain rfl := unmoved parties
  obtain rfl := Option.some.inj (found.symm.trans found')
  obtain rfl := modify_eq_ok.mp put
  rw [← key_of_find_escrow found] at found
  exact ⟨⟨approved, undisputed⟩, found, rfl, s.escrows, s.escrows, rfl⟩

theorem who_of_requireRelease {escrow : Escrow} {o : EscrowReleaseOperation} {now : TimePointSec}
    {v : Unit} (run : escrow.requireRelease o now s = .ok v t) :
    escrow.disputed = true → o.who = escrow.agent := by
  intro disputed
  rw [Escrow.requireRelease, if_pos disputed] at run
  exact (require_eq_ok.mp run).1

theorem happens_release {o : EscrowReleaseOperation} {escrow : Escrow} (valid : o.validate = .ok ())
    (found : s.escrows.find? (o.fromAccount, o.escrowId) = some escrow)
    (run : escrowReleaseEvaluator o s = .ok () t) :
    (EscrowMove.release o escrow).Allowed ∧ (EscrowMove.release o escrow).Happens s t := by
  simp only [escrowReleaseEvaluator, Escrow.requireParties, bind_eq_ok, discard_eq_ok,
    getAccount_eq_ok, getEscrow_eq_ok, requireAtLeast_eq_ok, headBlockTime_eq_ok, require_eq_ok,
    lift_eq_ok, ShareType.sub_eq_ok, and_assoc, exists_and_left, exists_and_right, exists_eq_left',
    exists_const] at run
  obtain ⟨_, _, found', isLiquid, liquidLe, isDollar, dollarLe, _, _, receiver, approved, _, _, whose,
    _, _, paidLiquid, _, paid, paidDollar, liquidBalance, exactLiquid, dollarBalance, exactDollar,
    _, _, put, rest⟩ := run
  obtain rfl := Option.some.inj (found.symm.trans found')
  have byAgent := who_of_requireRelease whose
  obtain rfl := unmoved whose
  obtain rfl : liquidBalance = _ := (Int64.ofInt_toInt _).symm.trans (congrArg Int64.ofInt exactLiquid)
  obtain rfl : dollarBalance = _ := (Int64.ofInt_toInt _).symm.trans (congrArg Int64.ofInt exactDollar)
  obtain rfl := modify_eq_ok.mp put
  rw [← key_of_find_escrow found] at found
  have same : paid.escrows = s.escrows := by
    rw [keptField ChainState.escrows (fun _ => rfl) paidDollar,
      keptField ChainState.escrows (fun _ => rfl) paidLiquid]
  have payments : ∃ first last, payAll (EscrowMove.release o escrow).payments
      { s with escrows := first } = .ok () { paid with escrows := last } :=
    ⟨s.escrows, paid.escrows, payAll_cons paidLiquid (payAll_cons paidDollar payAll_nil)⟩
  obtain ⟨liquidNonneg, dollarNonneg⟩ := o.nonneg_of_validate valid
  refine ⟨⟨approved, receiver, byAgent, ⟨isLiquid.symm, liquidNonneg, liquidLe⟩, isDollar.symm,
    dollarNonneg, dollarLe⟩, ?_⟩
  rcases whenever_eq_ok.mp rest with ⟨empty, erased⟩ | ⟨funded, rfl⟩
  · obtain rfl := modify_eq_ok.mp erased
    have gone : (EscrowMove.release o escrow).leaves = none := if_pos empty
    refine ⟨found, ?_, payments⟩
    rw [EscrowMove.book_of_none gone, ← same]
    exact Table.erase_replace
  · have left : (EscrowMove.release o escrow).leaves = some (escrow.released o) := if_neg funded
    refine ⟨found, ?_, payments⟩
    rw [EscrowMove.book_of_some left, ← same]
    rfl

end Evaluators

/-! ### The escrows of a chain -/

section Chain

variable {s t : ChainState} {event : EscrowEvent}

theorem EscrowStep.happens {move : EscrowMove} (step : EscrowStep s (some (.moved move)) t) :
    move.Allowed ∧ move.Happens s t := by
  cases step with
  | approve valid found run => exact happens_approve valid found run
  | dispute _ found run => exact happens_dispute found run
  | release valid found run => exact happens_release valid found run
  | expire found unapproved run =>
    exact ⟨unapproved, @happens_refund s t (.expire _) () found rfl rfl run⟩

/-- An escrow is opened under a key that is not taken. -/
theorem EscrowStep.opens {o : EscrowTransferOperation} (step : EscrowStep s (some (.opened o)) t) :
    o.validate = .ok () ∧ s.escrows.insert? o.escrow = some t.escrows := by
  cases step with
  | transfer valid run =>
    refine ⟨valid, ?_⟩
    simp only [escrowTransferEvaluator, bind_eq_ok, discard_eq_ok, getAccount_eq_ok,
      headBlockTime_eq_ok, require_eq_ok, lift_eq_ok, requireAtLeast_eq_ok, and_assoc,
      exists_and_left, exists_and_right, exists_eq_left', exists_const] at run
    obtain ⟨_, _, _, _, _, _, _, _, _, _, _, _, _, _, _, _, _, _, takenLiquid, _, _, _, taken,
      takenDollars, added⟩ := run
    obtain ⟨escrows, inserted, rfl⟩ := create_eq_ok.mp added
    rw [keptField ChainState.escrows (fun _ => rfl) takenDollars,
      keptField ChainState.escrows (fun _ => rfl) takenLiquid] at inserted
    exact inserted

theorem EscrowMove.key_of_leaves {move : EscrowMove} {left : Escrow} (leaves : move.leaves = some left) :
    left.key = move.escrow.key := by
  cases move with
  | approve op escrow =>
    rw [EscrowMove.leaves] at leaves
    split at leaves
    · cases leaves
      rfl
    · cases leaves
  | dispute op escrow =>
    cases leaves
    rfl
  | release op escrow =>
    rw [EscrowMove.leaves] at leaves
    split at leaves
    · cases leaves
    · cases leaves
      rfl
  | expire escrow => cases leaves

/-- A move leaves what it says it leaves. -/
theorem EscrowMove.Happens.find?_self {move : EscrowMove} (happens : move.Happens s t) :
    t.escrows.find? move.escrow.key = move.leaves := by
  rw [happens.book]
  cases leaves : move.leaves with
  | some left =>
    have found := happens.found
    rw [EscrowMove.book_of_some leaves, ← EscrowMove.key_of_leaves leaves]
    rw [← EscrowMove.key_of_leaves leaves] at found
    exact Table.find?_replace_self found
  | none =>
    rw [EscrowMove.book_of_none leaves]
    exact Table.find?_erase_self

theorem EscrowMove.Happens.find?_of_ne {move : EscrowMove} (happens : move.Happens s t)
    {key : AccountName × Nat} (different : key ≠ move.escrow.key) :
    t.escrows.find? key = s.escrows.find? key := by
  rw [happens.book]
  cases leaves : move.leaves with
  | some left =>
    rw [EscrowMove.book_of_some leaves]
    rw [← EscrowMove.key_of_leaves leaves] at different
    exact Table.find?_replace_of_ne different
  | none =>
    rw [EscrowMove.book_of_none leaves]
    exact Table.find?_erase_of_ne different

/-- The move of the escrow under a key. -/
def EscrowEvent.moveOf (key : AccountName × Nat) : EscrowEvent → Option EscrowMove
  | .opened _ => none
  | .moved move => if move.escrow.key = key then some move else none

/-- The moves that the escrow under a key makes in a run. -/
def movesOf (key : AccountName × Nat) (events : List EscrowEvent) : List EscrowMove :=
  events.filterMap (EscrowEvent.moveOf key)

theorem movesOf_concat {key : AccountName × Nat} {events : List EscrowEvent} :
    movesOf key (events ++ [event]) = movesOf key events ++ (event.moveOf key).toList := by
  unfold movesOf
  rw [List.filterMap_append]
  congr 1

/-- What is found under the key of an escrow after it was opened is what its life comes to. -/
theorem life_of_run {o : EscrowTransferOperation} {events : List EscrowEvent}
    (opened : s.escrows.find? o.key = some o.escrow)
    (once : ∀ other, .opened other ∈ events → other.key ≠ o.key) (run : EscrowRun s events t) :
    EscrowLife o (movesOf o.key events) (t.escrows.find? o.key) := by
  induction run with
  | start =>
    rw [opened]
    exact .start
  | silent _ step inductionHypothesis =>
    cases step with
    | other same =>
      rw [same]
      exact inductionHypothesis once
  | @event u t earlier event _ step inductionHypothesis =>
    have life := inductionHypothesis fun other member =>
      once other (List.mem_append_left _ member)
    rw [movesOf_concat]
    cases event with
    | opened other =>
      have different : other.key ≠ o.key :=
        once other (List.mem_append_right _ (List.mem_singleton_self _))
      rw [EscrowEvent.moveOf, Option.toList_none, List.append_nil,
        Table.find?_insert?_of_ne step.opens.2 different.symm]
      exact life
    | moved move =>
      obtain ⟨allowed, happens⟩ := step.happens
      rw [EscrowEvent.moveOf]
      split
      · next isKey =>
        rw [Option.toList_some, ← isKey, happens.find?_self]
        rw [← isKey, happens.found] at life
        exact life.event (.made allowed)
      · next different =>
        rw [Option.toList_none, List.append_nil, happens.find?_of_ne (Ne.symm different)]
        exact life

theorem reaches_approve {o : EscrowApproveOperation} (valid : o.validate = .ok ()) :
    Respects (Reaches EscrowStep) (escrowApproveEvaluator o) where
  related s _ t run := by
    obtain ⟨escrow, _, read, _⟩ := bind_eq_ok.mp run
    exact reaches_of_step (.approve valid (getEscrow_eq_ok.mp read).1 run)

theorem reaches_dispute {o : EscrowDisputeOperation} (valid : o.validate = .ok ()) :
    Respects (Reaches EscrowStep) (escrowDisputeEvaluator o) where
  related s _ t run := by
    obtain ⟨_, _, verified, rest⟩ := bind_eq_ok.mp run
    obtain rfl := unmoved verified
    obtain ⟨escrow, _, read, _⟩ := bind_eq_ok.mp rest
    exact reaches_of_step (.dispute valid (getEscrow_eq_ok.mp read).1 run)

theorem reaches_release {o : EscrowReleaseOperation} (valid : o.validate = .ok ()) :
    Respects (Reaches EscrowStep) (escrowReleaseEvaluator o) where
  related s _ t run := by
    obtain ⟨_, _, verified, rest⟩ := bind_eq_ok.mp run
    obtain rfl := unmoved verified
    obtain ⟨escrow, _, read, _⟩ := bind_eq_ok.mp rest
    exact reaches_of_step (.release valid (getEscrow_eq_ok.mp read).1 run)

instance : Respects (Reaches EscrowStep) expireEscrowRatification where
  related s _ t run := by
    have looped := get_bind_eq_ok.mp run
    refine forM_listed_mem ChainState.escrows (fun escrow member s t _ found refunded => ?_)
      (Table.lists_of_perm_filter (List.perm_insertionSort _ _)) looped
    have due := (List.mem_filter.mp ((List.perm_insertionSort _ _).mem_iff.mp member)).2
    have unapproved := (Bool.not_eq_true' _).mp (Bool.and_eq_true _ _ ▸ due).1
    have expired : EscrowStep s (some (.moved (.expire escrow))) t :=
      .expire found unapproved refunded
    exact ⟨reaches_of_step expired, fun key different => expired.happens.2.find?_of_ne different⟩

/-- The escrows of a chain change only as the steps of escrows change them. -/
theorem reaches_run {step : ChainStep} (validated : step.validated) :
    Respects (Reaches EscrowStep) step.run := by
  refine @respects_run_of_watched _ [.escrows] _ _ _ validated (fun s t same => ?_)
    (fun producing op member valid touched => ?_) (fun blockStep touched => ?_) (by decide)
  · exact reaches_of_step (.other (same .escrows List.mem_cons_self))
  · cases op with
    | escrowTransfer o => exact ⟨fun s _ t run => reaches_of_step (.transfer valid run)⟩
    | escrowApprove o => exact reaches_approve valid
    | escrowDispute o => exact reaches_dispute valid
    | escrowRelease o => exact reaches_release valid
    | _ => exact absurd touched (of_decide_eq_false rfl)
  · cases blockStep with
    | escrowRatification =>
      exact inferInstanceAs (Respects (Reaches EscrowStep) expireEscrowRatification)
    | _ => exact absurd touched (of_decide_eq_false rfl)

end Chain

/-- Whatever happens on a chain, its escrows go through the four operations and the expiry alone; and
an escrow, from the operation that opens it to the end, pays out what was deposited, pays its fee
once, and pays no one else before both approvals or against a dispute. The payments of a move are
those the chain makes. -/
theorem escrows_settled :
    (∀ start state, Reachable start state → ∃ events, EscrowRun start events state) ∧
      ∀ s events t earlier o rest, EscrowRun s events t → events = earlier ++ .opened o :: rest →
        (∀ other, .opened other ∈ rest → other.key ≠ o.key) →
          o.Settled (movesOf o.key rest) (t.escrows.find? o.key) ∧
            ∀ before move after, rest = before ++ .moved move :: after →
              ∃ u v, EscrowRun s (earlier ++ .opened o :: before) u ∧ move.Happens u v ∧
                EscrowRun v after t := by
  refine ⟨fun start state reached => ?_, fun s events t earlier o rest run split once => ?_⟩
  · refine @ReachableBy.invariant _ _ (Reaches EscrowStep start) ⟨[], .start⟩
      (fun before after step reaches validated _ accepted => ?_) _ reached
    exact IsTrans.trans _ _ _ reaches ((reaches_run validated).related before _ after accepted)
  · subst split
    obtain ⟨u, v, first, step, later⟩ := run.split
    obtain ⟨valid, inserted⟩ := step.opens
    refine ⟨(life_of_run (Table.find?_insert?_self inserted) once later).settled valid,
      fun before move after split => ?_⟩
    subst split
    obtain ⟨w, x, before, moved, after⟩ := later.split
    refine ⟨w, x, ?_, moved.happens.2, after⟩
    rw [List.append_cons]
    exact (first.event step).trans before

/-- An escrow of the genesis account for the account `null`, with the account `temp` as its agent. -/
def smallEscrow : EscrowTransferOperation where
  fromAccount := AccountName.genesis
  toAccount := AccountName.null
  agent := AccountName.temp
  escrowId := 1
  dollarAmount := ⟨0, .dollar⟩
  liquidAmount := ⟨100, .liquid⟩
  fee := ⟨1, .liquid⟩
  ratificationDeadline := genesisTime + 60
  escrowExpiration := genesisTime + 120
  jsonMeta := ⟨[], true⟩

/-- The agent does not want to. -/
def smallRefusal : EscrowApproveOperation :=
  ⟨AccountName.genesis, AccountName.null, AccountName.temp, AccountName.temp, 1, false⟩

/-- The refused escrow is paid back, with its fee. -/
theorem smallEscrow_settled :
    ∃ state, EscrowRun (initGenesis 1000 0)
        [.opened smallEscrow, .moved (.approve smallRefusal smallEscrow.escrow)] state ∧
      smallEscrow.Settled [.approve smallRefusal smallEscrow.escrow]
        (state.escrows.find? smallEscrow.key) := by
  have finished : Finishes (escrowTransferEvaluator smallEscrow >>= fun _ =>
      escrowApproveEvaluator smallRefusal) (initGenesis 1000 0) := by decide +kernel
  obtain ⟨_, state, run⟩ := finished
  obtain ⟨_, middle, opened, refused⟩ := bind_eq_ok.mp run
  have first : EscrowStep (initGenesis 1000 0) (some (.opened smallEscrow)) middle :=
    .transfer (by decide) opened
  have second : EscrowStep middle (some (.moved (.approve smallRefusal smallEscrow.escrow))) state :=
    .approve (by decide) (Table.find?_insert?_self first.opens.2) refused
  have ran : EscrowRun (initGenesis 1000 0)
      [.opened smallEscrow, .moved (.approve smallRefusal smallEscrow.escrow)] state :=
    ((Run.start.event first).event second : Run EscrowStep _ ([] ++ [_] ++ [_]) _)
  have once (other : EscrowTransferOperation)
      (member : .opened other ∈ [EscrowEvent.moved (.approve smallRefusal smallEscrow.escrow)]) :
      other.key ≠ smallEscrow.key := by
    cases List.mem_singleton.mp member
  have settled := (escrows_settled.2 _ _ _ [] smallEscrow _ ran rfl once).1
  exact ⟨state, ran, settled⟩

end Zattera
