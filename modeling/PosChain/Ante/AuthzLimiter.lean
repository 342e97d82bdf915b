import PosChain.Base.Action

namespace PosChain.Ante

def execURL : String := "/cosmos.authz.v1beta1.MsgExec"
def grantURL : String := "/cosmos.authz.v1beta1.MsgGrant"

-- A message as the limiter sees it. The contents of a MsgExec and the
-- authorization of a MsgGrant are unpacked by authz, which can fail.
inductive AuthzMsg where
  | exec (msgs : List AuthzMsg)
  | execError (error : String)
  | grant (authorization : Except String String)
  | other (typeURL : String)

def AuthzMsg.typeURL : AuthzMsg → String
  | .exec _ => execURL
  | .execError _ => execURL
  | .grant _ => grantURL
  | .other typeURL => typeURL

structure AuthzLimiterDecorator where
  disabledMsgTypes : List String

namespace AuthzLimiterDecorator

def maxNestedMsgs : Nat := 7

def isDisabledMsg (ald : AuthzLimiterDecorator) (msgTypeURL : String) : Bool :=
  ald.disabledMsgTypes.contains msgTypeURL

def foundDisabled (url : String) : String :=
  "found disabled msg type: " ++ url

-- The guard at the head of checkDisabledMsgs.
def checkNestedLvl (nestedLvl : Nat) : Check Unit :=
  failIf (maxNestedMsgs ≤ nestedLvl)
    ("found more nested msgs than permitted; got: " ++ toString nestedLvl ++ ", expected: <" ++
      toString maxNestedMsgs)

-- One turn of the loop returns the level that the next turn starts from. The
-- level is a variable of the loop: a MsgExec raises it for the messages that
-- follow as well.
mutual
def checkDisabledMsg (ald : AuthzLimiterDecorator) (isAuthzInnerMsg : Bool) (nestedLvl : Nat) :
    AuthzMsg → Check Nat
  | .exec msgs => do
    checkNestedLvl (nestedLvl + 1)
    ald.checkDisabledLoop true (nestedLvl + 1) msgs
    return nestedLvl + 1
  | .execError error => throw (.error error)
  | .grant authorization => do
    let url ← passOn authorization
    failIf (ald.isDisabledMsg url) (foundDisabled url)
    return nestedLvl
  | .other typeURL => do
    failIf (isAuthzInnerMsg && ald.isDisabledMsg typeURL) (foundDisabled typeURL)
    return nestedLvl

def checkDisabledLoop (ald : AuthzLimiterDecorator) (isAuthzInnerMsg : Bool) (nestedLvl : Nat) :
    List AuthzMsg → Check Unit
  | [] => pure ()
  | msg :: rest => do
    let next ← ald.checkDisabledMsg isAuthzInnerMsg nestedLvl msg
    ald.checkDisabledLoop isAuthzInnerMsg next rest
end

def checkDisabledMsgs (ald : AuthzLimiterDecorator) (msgs : List AuthzMsg) (isAuthzInnerMsg : Bool)
    (nestedLvl : Nat) : Check Unit := do
  checkNestedLvl nestedLvl
  ald.checkDisabledLoop isAuthzInnerMsg nestedLvl msgs

-- The decorator either stops the transaction or hands it on.
def anteHandle (ald : AuthzLimiterDecorator) (msgs : List AuthzMsg) : Check Unit :=
  (ald.checkDisabledMsgs msgs false 1).mapError (Fault.reword (· ++ ": unauthorized"))

end AuthzLimiterDecorator

def authzLimiter : AuthzLimiterDecorator where
  disabledMsgTypes :=
    ["/cosmos.evm.vm.v1.MsgEthereumTx", "/cosmos.vesting.v1beta1.MsgCreateVestingAccount",
      "/cosmos.gov.v1.MsgSubmitProposal"]

end PosChain.Ante
