import ContractSurvey.Signature.Category

/-!
# Signature — Known

The known functions of each category: selector and signature.
-/

namespace ContractSurvey.Signature

/-- Fungible tokens and their usual extensions. -/
def erc20Functions : List (Selector × String) :=
  [("0x70a08231", "balanceOf(address)"),
   ("0xa9059cbb", "transfer(address,uint256)"),
   ("0x23b872dd", "transferFrom(address,address,uint256)"),
   ("0x095ea7b3", "approve(address,uint256)"),
   ("0xdd62ed3e", "allowance(address,address)"),
   ("0x18160ddd", "totalSupply()"),
   ("0x06fdde03", "name()"),
   ("0x95d89b41", "symbol()"),
   ("0x313ce567", "decimals()"),
   ("0x39509351", "increaseAllowance(address,uint256)"),
   ("0xa457c2d7", "decreaseAllowance(address,uint256)"),
   ("0x40c10f19", "mint(address,uint256)"),
   ("0x42966c68", "burn(uint256)"),
   ("0x79cc6790", "burnFrom(address,uint256)"),
   ("0x9dc29fac", "burn(address,uint256)")]

/-- Non-fungible tokens. -/
def erc721Functions : List (Selector × String) :=
  [("0x70a08231", "balanceOf(address)"),
   ("0x6352211e", "ownerOf(uint256)"),
   ("0x42842e0e", "safeTransferFrom(address,address,uint256)"),
   ("0xb88d4fde", "safeTransferFrom(address,address,uint256,bytes)"),
   ("0x23b872dd", "transferFrom(address,address,uint256)"),
   ("0x095ea7b3", "approve(address,uint256)"),
   ("0xa22cb465", "setApprovalForAll(address,bool)"),
   ("0x081812fc", "getApproved(uint256)"),
   ("0xe985e9c5", "isApprovedForAll(address,address)"),
   ("0xc87b56dd", "tokenURI(uint256)"),
   ("0x4f6ccce7", "tokenByIndex(uint256)"),
   ("0x2f745c59", "tokenOfOwnerByIndex(address,uint256)"),
   ("0x01ffc9a7", "supportsInterface(bytes4)")]

/-- Multi tokens. -/
def erc1155Functions : List (Selector × String) :=
  [("0x00fdd58e", "balanceOf(address,uint256)"),
   ("0x4e1273f4", "balanceOfBatch(address[],uint256[])"),
   ("0xf242432a", "safeTransferFrom(address,address,uint256,uint256,bytes)"),
   ("0x2eb2c2d6", "safeBatchTransferFrom(address,address,uint256[],uint256[],bytes)"),
   ("0xa22cb465", "setApprovalForAll(address,bool)"),
   ("0xe985e9c5", "isApprovedForAll(address,address)"),
   ("0x0e89341c", "uri(uint256)"),
   ("0x01ffc9a7", "supportsInterface(bytes4)")]

/-- Transparent, universal, beacon and diamond proxies. -/
def proxyFunctions : List (Selector × String) :=
  [("0x5c60da1b", "implementation()"),
   ("0x3659cfe6", "upgradeTo(address)"),
   ("0x4f1ef286", "upgradeToAndCall(address,bytes)"),
   ("0xf851a440", "admin()"),
   ("0x8f283970", "changeAdmin(address)"),
   ("0x52d1902d", "proxiableUUID()"),
   ("0x59659e90", "beacon()"),
   ("0xcdffacc6", "facetAddress(bytes4)"),
   ("0x52ef6b2c", "facetAddresses()"),
   ("0xadfca15e", "facetFunctionSelectors(address)"),
   ("0x7a0ed627", "facets()"),
   ("0x1f931c1c", "diamondCut((address,uint8,bytes4[])[],address,bytes)")]

/-- Owners, pausing, roles, guards and shared wallets. -/
def securityFunctions : List (Selector × String) :=
  [("0x8da5cb5b", "owner()"),
   ("0xf2fde38b", "transferOwnership(address)"),
   ("0x715018a6", "renounceOwnership()"),
   ("0x8456cb59", "pause()"),
   ("0x3f4ba83a", "unpause()"),
   ("0x5c975abb", "paused()"),
   ("0x248a9ca3", "getRoleAdmin(bytes32)"),
   ("0x2f2ff15d", "grantRole(bytes32,address)"),
   ("0xd547741f", "revokeRole(bytes32,address)"),
   ("0x91d14854", "hasRole(bytes32,address)"),
   ("0x36568abe", "renounceRole(bytes32,address)"),
   ("0x129ea136", "nonReentrant()"),
   ("0xc6427474", "submitTransaction(address,uint256,bytes)"),
   ("0xc01a8c84", "confirmTransaction(uint256)"),
   ("0xee22610b", "executeTransaction(uint256)"),
   ("0x20ea8d86", "revokeConfirmation(uint256)")]

/-- Exchanges and lending. -/
def deFiFunctions : List (Selector × String) :=
  [("0x022c0d9f", "swap(uint256,uint256,address,bytes)"),
   ("0xe8e33700", "addLiquidity(address,address,uint256,uint256,uint256,uint256,address,uint256)"),
   ("0xbaa2abde", "removeLiquidity(address,address,uint256,uint256,uint256,address,uint256)"),
   ("0x7ff36ab5", "swapExactETHForTokens(uint256,address[],address,uint256)"),
   ("0x18cbafe5", "swapExactTokensForETH(uint256,uint256,address[],address,uint256)"),
   ("0x38ed1739", "swapExactTokensForTokens(uint256,uint256,address[],address,uint256)"),
   ("0x414bf389", "exactInputSingle((address,address,uint24,address,uint256,uint256,uint256,uint160))"),
   ("0xc04b8d59", "exactInput((bytes,address,uint256,uint256,uint256))"),
   ("0xa0712d68", "mint(uint256)"),
   ("0xdb006a75", "redeem(uint256)"),
   ("0x852a12e3", "redeemUnderlying(uint256)"),
   ("0xc5ebeaec", "borrow(uint256)"),
   ("0x0e752702", "repayBorrow(uint256)"),
   ("0xf5e3c462", "liquidateBorrow(address,uint256,address)"),
   ("0xe8eda9df", "deposit(address,uint256,address,uint16)"),
   ("0x69328dec", "withdraw(address,uint256,address)"),
   ("0xa415bcad", "borrow(address,uint256,uint256,uint16,address)"),
   ("0x573ade81", "repay(address,uint256,uint256,address)"),
   ("0xab9c4b5d", "flashLoan(address,address[],uint256[],uint256[],address,bytes,uint16)")]

/-- Calls in batches. -/
def gasOptimizationFunctions : List (Selector × String) :=
  [("0x88d695b2", "batchTransfer(address[],uint256[])"),
   ("0xac9650d8", "multicall(bytes[])"),
   ("0x5ae401dc", "multicall(uint256,bytes[])")]

/-- The known functions of a category. -/
def functionsOf : Category → List (Selector × String)
  | .erc20 => erc20Functions
  | .erc721 => erc721Functions
  | .erc1155 => erc1155Functions
  | .proxy => proxyFunctions
  | .security => securityFunctions
  | .deFi => deFiFunctions
  | .gasOptimization => gasOptimizationFunctions

end ContractSurvey.Signature
