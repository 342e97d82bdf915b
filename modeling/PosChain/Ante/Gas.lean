import PosChain.Base.Action

namespace PosChain.Ante

-- MaxGas is missing when the consensus parameters have no block part.
def blockGasLimit (maxGas : Option Int64) : UInt64 :=
  match maxGas with
  | none => 0
  | some maxGas =>
    if maxGas = -1 then UInt64.ofNat (2 ^ 64 - 1)
    else if 0 < maxGas then maxGas.toUInt64
    else 0

def updateCumulativeGasWanted (isCheckTx : Bool) (msgGasWanted maxTxGasWanted cumulativeGasWanted : UInt64) :
    UInt64 :=
  if isCheckTx && maxTxGasWanted != 0 then
    if maxTxGasWanted < msgGasWanted then cumulativeGasWanted + maxTxGasWanted
    else cumulativeGasWanted + msgGasWanted
  else cumulativeGasWanted + msgGasWanted

def checkBlockGasLimit (maxGas : Option Int64) (gasWanted : UInt64) : Check Unit :=
  failIf (blockGasLimit maxGas < gasWanted)
    ("tx gas (" ++ toString gasWanted.toNat ++ ") exceeds block gas limit (" ++
      toString (blockGasLimit maxGas).toNat ++ "): out of gas")

end PosChain.Ante
