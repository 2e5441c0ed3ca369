import Mathlib.Data.List.Basic

/-!
`TradeManager.cs`: the trade window of the client, and its part of `Match.OnPacketReceived`.

* `TradeUI`: what the scene sets. A reference that is not set is `none`; of a panel it is kept
  whether it is active, of a button whether it is interactable, of an inventory which items its
  slots show.
* `TradeManager`, with its functions: a call on a panel that is not set throws, and what follows it
  in the function is not done.
* `TradeEvent`, `TradeManager.step`: the calls, by the player and by `Match`. `OnClickConfirm` is
  called by its button, and only while that is interactable.

The texts of the window are write only and left out. The slots of an inventory are set, and their
icons.
-/

namespace CKGameServer

/-- The packets that `TradeManager` sends. -/
inductive TradePacket where
  | tradeRequest (targetUUID : Int64)
  | tradeResponse (requesterUUID : Int64) (isAccept : Bool)
  | tradeItemUpdate (slotIndex itemID : Int32)
  | tradeLock (isLocked : Bool)
  | tradeConfirm (isConfirmed : Bool)
  deriving DecidableEq

/-! ### `Inventory` -/

/-- `Inventory.InventorySize`. -/
def clientInventorySize : ℕ := 5

/-- The items that the slots of an `Inventory` show. -/
abbrev InventorySlots := List Int32

/-- `Inventory.SetInventory`. -/
def InventorySlots.setInventory (items : List Int32) (slots : InventorySlots) : InventorySlots :=
  slots.mapIdx fun i itemID => if i < clientInventorySize then items.getD i 0 else itemID

/-- `Inventory.SetInventoryByIndex`. -/
def InventorySlots.setInventoryByIndex (index itemID : Int32) (slots : InventorySlots) :
    InventorySlots :=
  if index.toInt < 0 ∨ clientInventorySize ≤ index.toInt then slots
  else if slots.length ≤ index.toInt then slots
  else slots.set index.toInt.toNat itemID

/-! ### `TradeManager` -/

/-- The members of `TradeManager` that the scene sets. -/
structure TradeUI where
  tradeReqPanel : Option Bool := none
  tradeWindowPanel : Option Bool := none
  myLockButton : Option Bool := none
  myConfirmButton : Option Bool := none
  myTradeInventory : Option InventorySlots := none
  partnerTradeInventory : Option InventorySlots := none
  deriving DecidableEq

/-- `TradeManager`, with the packets it has sent. -/
structure TradeManager extends TradeUI where
  currentPartnerUUID : Int64 := 0
  requestSenderUUID : Int64 := 0
  isMyLocked : Bool := false
  isPartnerLocked : Bool := false
  sent : List TradePacket := []
  deriving DecidableEq

namespace TradeManager

/-- `Awake`. -/
def awake (ui : TradeUI) : TradeManager where
  toTradeUI :=
    { ui with
      tradeReqPanel := ui.tradeReqPanel.map fun _ => false
      tradeWindowPanel := ui.tradeWindowPanel.map fun _ => false }

variable (m : TradeManager)

/-- `Client.TCP.SendPacket`. -/
def sendPacket (packet : TradePacket) : TradeManager := { m with sent := m.sent ++ [packet] }

/-- `SendTradeRequest`. -/
def sendTradeRequest (targetUUID : Int64) : TradeManager := m.sendPacket (.tradeRequest targetUUID)

/-- `SendResponse`. -/
def sendResponse (isAccept : Bool) : TradeManager :=
  m.sendPacket (.tradeResponse m.requestSenderUUID isAccept)

/-- A response, after which the request disappears. -/
def respond (isAccept : Bool) : TradeManager :=
  { m.sendResponse isAccept with tradeReqPanel := m.tradeReqPanel.map fun _ => false }

/-- `OnClickAccept`. -/
def onClickAccept : TradeManager := m.respond true

/-- `OnClickReject`. -/
def onClickReject : TradeManager := m.respond false

/-- `OnRegisterItem`. -/
def onRegisterItem (slotIndex itemID : Int32) : TradeManager :=
  if m.isMyLocked then m
  else
    { m.sendPacket (.tradeItemUpdate slotIndex itemID) with
      myTradeInventory :=
        m.myTradeInventory.map (InventorySlots.setInventoryByIndex slotIndex itemID) }

/-- `CheckConfirmState`. -/
def checkConfirmState : TradeManager :=
  if m.isMyLocked && m.isPartnerLocked then
    { m with myConfirmButton := m.myConfirmButton.map fun _ => true }
  else m

/-- `OnClickLock`. -/
def onClickLock : TradeManager :=
  checkConfirmState <|
    sendPacket { m with isMyLocked := true, myLockButton := m.myLockButton.map fun _ => false }
      (.tradeLock true)

/-- `OnClickConfirm`. -/
def onClickConfirm : TradeManager :=
  { m.sendPacket (.tradeConfirm true) with
    myConfirmButton := m.myConfirmButton.map fun _ => false }

/-- `ShowRequestPopup`. -/
def showRequestPopup (uuid : Int64) : TradeManager :=
  { m with requestSenderUUID := uuid, tradeReqPanel := m.tradeReqPanel.map fun _ => true }

/-- `emptySlots`. -/
def emptySlots : List Int32 := List.replicate 5 0

/-- Both inventories show no items. -/
def clearInventories : TradeManager :=
  { m with
    myTradeInventory := m.myTradeInventory.map (InventorySlots.setInventory emptySlots)
    partnerTradeInventory := m.partnerTradeInventory.map (InventorySlots.setInventory emptySlots) }

/-- `OpenTradeWindow`, behind the two panels. -/
def resetTrade : TradeManager :=
  clearInventories
    { m with
      isMyLocked := false
      isPartnerLocked := false
      myLockButton := m.myLockButton.map fun _ => true
      myConfirmButton := m.myConfirmButton.map fun _ => false }

/-- `OpenTradeWindow`. -/
def openTradeWindow (partnerUUID : Int64) : TradeManager :=
  match m.tradeWindowPanel, m.tradeReqPanel with
  | none, _ => { m with currentPartnerUUID := partnerUUID }
  | some _, none => { m with currentPartnerUUID := partnerUUID, tradeWindowPanel := some true }
  | some _, some _ =>
    resetTrade
      { m with
        currentPartnerUUID := partnerUUID
        tradeWindowPanel := some true
        tradeReqPanel := some false }

/-- `CloseTradeWindow`. -/
def closeTradeWindow : TradeManager :=
  match m.tradeWindowPanel with
  | none => m
  | some _ => clearInventories { m with tradeWindowPanel := some false }

/-- `SetPartnerLockState`. -/
def setPartnerLockState (isLock : Bool) : TradeManager :=
  checkConfirmState { m with isPartnerLocked := isLock }

/-- `SetPartnerItem`. -/
def setPartnerItem (index itemID : Int32) : TradeManager :=
  { m with
    partnerTradeInventory :=
      m.partnerTradeInventory.map (InventorySlots.setInventoryByIndex index itemID) }

/-- `Match.OnPacketReceived`, the case of a `TRADE_LOCK_NTF`. -/
def onTradeLockNtf (isLocked : Bool) : TradeManager :=
  checkConfirmState (m.setPartnerLockState isLocked)

/-- A check that follows a check does nothing. -/
lemma checkConfirmState_checkConfirmState :
    m.checkConfirmState.checkConfirmState = m.checkConfirmState := by
  by_cases h : (m.isMyLocked && m.isPartnerLocked) = true
  · simp [checkConfirmState, h]
  · simp [checkConfirmState, h]

/-- A `TRADE_LOCK_NTF` does what `SetPartnerLockState` does. -/
lemma onTradeLockNtf_eq (isLocked : Bool) :
    m.onTradeLockNtf isLocked = m.setPartnerLockState isLocked :=
  checkConfirmState_checkConfirmState _

end TradeManager

/-! ### Steps -/

/-- A call of `TradeManager`. -/
inductive TradeEvent where
  | openTradeWindow (partnerUUID : Int64)
  | onRegisterItem (slotIndex itemID : Int32)
  | onClickLock
  | setPartnerLockState (isLock : Bool)
  | setPartnerItem (index itemID : Int32)
  | onClickConfirm
  | closeTradeWindow
  | sendTradeRequest (targetUUID : Int64)
  | showRequestPopup (uuid : Int64)
  | onClickAccept
  | onClickReject

/-- The effect of a call. -/
def TradeManager.step (m : TradeManager) : TradeEvent → Option TradeManager
  | .openTradeWindow partnerUUID => some (m.openTradeWindow partnerUUID)
  | .onRegisterItem slotIndex itemID => some (m.onRegisterItem slotIndex itemID)
  | .onClickLock => some m.onClickLock
  | .setPartnerLockState isLock => some (m.setPartnerLockState isLock)
  | .setPartnerItem index itemID => some (m.setPartnerItem index itemID)
  | .onClickConfirm => if m.myConfirmButton = some true then some m.onClickConfirm else none
  | .closeTradeWindow => some m.closeTradeWindow
  | .sendTradeRequest targetUUID => some (m.sendTradeRequest targetUUID)
  | .showRequestPopup uuid => some (m.showRequestPopup uuid)
  | .onClickAccept => some m.onClickAccept
  | .onClickReject => some m.onClickReject

end CKGameServer
