import PosChain.Ante.Evm.Theorems
import PosChain.Evm.Transition.Steps

namespace PosChain.Ante

open Ethereum Evm

variable {R : Type}

-- A transaction as the application delivers it in a block. What the handler has written
-- stays when the message fails, and what the message has written is dropped.
structure Delivery (R : Type) where
  block : Block R
  options : Options
  tx : EthTx
  txIndex : Nat

inductive Delivered where
  | rejected (fault : Fault)
  | failed (fault : Fault)
  | executed (res : Response)

namespace Delivery

variable (d : Delivery R)

def accept (w : World R) : EStateM.Result Fault (Ctx (World R)) Unit :=
  (anteHandle d.block d.options d.tx).run ⟨w, []⟩

def execute (w : World R) : World R × Delivered :=
  match d.tx.unpackMsg with
  | .error fault => (w, .failed fault)
  | .ok msg =>
    match (d.block.applyTransaction msg.raw d.txIndex).run ⟨w, []⟩ with
    | .ok res next => (next.world, .executed res)
    | .error fault _ => (w, .failed fault)

def deliver (w : World R) : World R × Delivered :=
  match d.accept w with
  | .ok _ paid => d.execute paid.world
  | .error fault _ => (w, .rejected fault)

-- The message of the transaction is applied to the state that the handler has left.
structure Applied (paid : World R) (msg : MsgEthereumTx) (message : Message) (res : Response)
    (last : Machine (World R)) : Prop where
  msgs : d.tx.msgs = [some msg]
  message : ∃ cfg, d.block.evmConfig = .ok cfg ∧ msg.raw.toMessage cfg.baseFee = .ok message ∧
    (d.block.chain.applyMessageWithConfig d.block.env message cfg true false false).run
      ⟨.new ⟨paid, []⟩ d.txIndex, []⟩ = .ok res last

structure Returned (paid : World R) (msg : MsgEthereumTx) (message : Message)
    (ran : Machine (World R)) : Prop where
  msgs : d.tx.msgs = [some msg]
  message : ∃ cfg out, d.block.evmConfig = .ok cfg ∧ msg.raw.toMessage cfg.baseFee = .ok message ∧
    (d.block.chain.runMessage d.block.env message false).run ⟨.new ⟨paid, []⟩ d.txIndex, []⟩ = .ok out ran

end Delivery

section Delivering

variable {d : Delivery R} {w : World R} {paid : Ctx (World R)}

theorem deliver_of_accept (haccept : d.accept w = .ok () paid) : d.deliver w = d.execute paid.world := by
  rw [Delivery.deliver, haccept]

theorem Delivery.Applied.returned {v : World R} {msg : MsgEthereumTx} {message : Message} {res : Response}
    {last : Machine (World R)} (h : d.Applied v msg message res last) :
    ∃ ran next, d.Returned v msg message ran ∧
      (ran.db.commitWithCtx d.block.env).run ran.db.writeCache = .ok () next ∧
      last = ran.setDb { ran.db with ctx := next } := by
  obtain ⟨cfg, hcfg, hmessage, happly⟩ := h.message
  obtain ⟨leftoverGas, vmErr, ran, refund, hrun, -, -, hcommit, -⟩ := applyMessageWithConfig_ok happly
  obtain ⟨next, hnext, hlast⟩ := commit_ok hcommit
  exact ⟨ran, next, ⟨h.msgs, cfg, _, hcfg, hmessage, hrun⟩, hnext, hlast⟩

-- What the execution of a transaction keeps: the message and the hooks have to keep it,
-- and the refund.
theorem execute_keeps (kept : World R → Prop) {v : World R}
    (happlied : ∀ msg message res last, d.Applied v msg message res last → kept last.db.ctx.world)
    (hhooks : ∀ hooks, d.block.hooks = some hooks → ∀ sender message res ctx next,
      (hooks sender message res).run ctx = .ok () next → kept ctx.world → kept next.world)
    (hrefund : ∀ recipient amount first second, Sent d.block.feeCollector recipient amount first second →
      kept first → kept second) (h : kept v) : kept (d.execute v).1 := by
  unfold Delivery.execute
  split
  · exact h
  · rename_i msg hmsg
    split
    · rename_i res next hrun
      obtain ⟨message, executed, hexecuted, hback⟩ := Block.applyTransaction_ok hrun
      refine hrefund _ _ _ _ (Block.refundGas_ok hback).2 ?_
      obtain ⟨cfg, sender, first, tmp, hcfg, hsender, hmessage, hfirst, hlast⟩ :=
        Block.executeTransaction_ok hexecuted
      obtain ⟨m, happly, rfl⟩ := Block.applyMessage_ok hfirst
      have hwritten : kept m.db.ctx.world := by
        refine happlied msg message first m ⟨unpackMsg_ok hmsg, cfg, hcfg, ?_, happly⟩
        rw [hmessage, Transaction.toMessage, hsender]
        rfl
      rcases (Block.postTxProcessing_ok hlast).2 with hsame | hworld |
        ⟨hooks, start, last, hfound, hstart, hran, hworld⟩
      · rw [hsame]
        exact h
      · rw [hworld]
        exact hwritten
      · rw [hworld]
        refine hhooks hooks hfound _ _ _ _ _ hran ?_
        rcases hstart with hbefore | hafter
        · rw [hbefore]
          exact h
        · rw [hafter]
          exact hwritten
    · exact h

end Delivering

end PosChain.Ante
