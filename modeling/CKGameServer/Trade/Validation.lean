import CKGameServer.Trade.Correct

/-!
What the trade branch checks of a request.

* `ValidRequest`, `Rejected`: a request of two users who offer what they own, and the answer an
  invalid one should have.
* `rejected_iff`: the branch rejects a request exactly if an inventory is not read or an item
  finds no place. Of slots, of owners and of the two users it checks nothing.
* `validates_iff`: the invalid requests that are rejected.
-/

namespace CKGameServer

open Memory FillEmpty

/-- Two users who offer items they own. -/
structure ValidRequest (db : Store) (req : RedisTradeReq) : Prop where
  distinct : req.userAID ≠ req.userBID
  offerA : ValidOffer (inventoryAt db req.userAID) req.itemsASlot req.itemsAID
  offerB : ValidOffer (inventoryAt db req.userBID) req.itemsBSlot req.itemsBID

/-- The request is rejected: the branch writes to no cell outside its arrays, does not answer
success and leaves both stored inventories as they were. -/
def Rejected (db : Store) (req : RedisTradeReq) : Except Fault RedisOutcome → Prop
  | .error e => e ≠ .arrayBounds
  | .ok out => ¬AnswersSuccess out ∧ ∀ userID ∈ [req.userAID, req.userBID],
      out.store (invenKey userID) = db (invenKey userID)

/-- All offered slots are in range and yet an item finds no place. -/
def NoPlace (req : RedisTradeReq) (a b : Inventory) : Prop :=
  SlotsInRange req.itemsASlot ∧ SlotsInRange req.itemsBSlot ∧ ¬OffersFit req a b

variable {env : RedisEnv} {db : Store} {req : RedisTradeReq} {a b : Inventory}

/-- With both inventories read, a request is rejected exactly if an item finds no place. -/
lemma rejected_of_loads_iff (h : Loads env db req a b) :
    Rejected db req (requestTradeExchange env db req) ↔ NoPlace req a b := by
  by_cases hslots : SlotsInRange req.itemsASlot ∧ SlotsInRange req.itemsBSlot
  · rw [requestTradeExchange_of_loads h hslots.1 hslots.2]
    by_cases hfit : OffersFit req a b
    · rw [if_pos hfit]
      refine iff_of_false (fun hrejected => ?_) fun hplace => hplace.2.2 hfit
      exact hrejected.1 (answersSuccess_tradeResponses.mpr rfl)
    · rw [if_neg hfit]
      refine iff_of_true ⟨fun hsuccess => ?_, fun _ _ => rfl⟩ ⟨hslots.1, hslots.2, hfit⟩
      cases answersSuccess_tradeResponses.mp hsuccess
  · rw [requestTradeExchange_outOfRange h hslots]
    exact iff_of_false (fun hne => hne rfl) fun hplace => hslots ⟨hplace.1, hplace.2.1⟩

/-- A request for an inventory that is not read is rejected. -/
lemma rejected_of_not_loads (h : ∀ a b, ¬Loads env db req a b) :
    Rejected db req (requestTradeExchange env db req) := by
  rcases requestTradeExchange_of_not_loads h with ⟨e, he, hne⟩ | hok
  · rw [he]
    exact hne
  · rw [hok]
    exact ⟨(not_answersSuccess_of_not_loads h hok).1, fun _ _ => rfl⟩

/-- **What the branch rejects**, valid or not. -/
theorem rejected_iff (env : RedisEnv) (db : Store) (req : RedisTradeReq) :
    Rejected db req (requestTradeExchange env db req) ↔
      ∀ a b, Loads env db req a b → NoPlace req a b := by
  by_cases h : ∃ a b, Loads env db req a b
  · obtain ⟨a, b, hloads⟩ := h
    rw [rejected_of_loads_iff hloads]
    constructor
    · intro hplace a' b' hloads'
      exact (rejected_of_loads_iff hloads').mp ((rejected_of_loads_iff hloads).mpr hplace)
    · exact fun hplace => hplace a b hloads
  · have hnone : ∀ a b, ¬Loads env db req a b := fun a b hloads => h ⟨a, b, hloads⟩
    exact iff_of_true (rejected_of_not_loads hnone) fun a b hloads => absurd hloads (hnone a b)

/-- **The requests that are validated.** -/
theorem validates_iff (env : RedisEnv) (db : Store) (req : RedisTradeReq) :
    (¬ValidRequest db req → Rejected db req (requestTradeExchange env db req)) ↔
      ValidRequest db req ∨ ∀ a b, Loads env db req a b → NoPlace req a b := by
  rw [rejected_iff, ← or_iff_not_imp_left]

/-- Two users with empty inventories: A lists item 105 in no slot, the answer is success, and A
holds item 105. -/
theorem trade_creates_item :
    let db := inventoriesOfAB (oneItem 0 0) (oneItem 0 0)
    let req := tradeOf (oneItem (-1) (-1)) (oneItem 105 0) (oneItem (-1) (-1)) (oneItem 0 0)
    ¬ValidRequest db req ∧ ¬Rejected db req (requestTradeExchange {} db req) ∧
      ∃ out, requestTradeExchange {} db req = .ok out ∧ AnswersSuccess out ∧
        items (inventoryAt out.store req.userAID) = {105} := by
  intro db req
  have hinvA : inventoryAt db req.userAID = oneItem 0 0 :=
    inventoryAt_inventoriesOf_left _ _ (by decide)
  have hinvB : inventoryAt db req.userBID = oneItem 0 0 :=
    inventoryAt_inventoriesOf_right _ _ (by decide) (by decide)
  have hend : requestTradeExchange {} db req = _ := requestTradeExchange_stored
    (holdsInventory_inventoriesOf_left _ _ (by decide))
    (holdsInventory_inventoriesOf_right _ _ (by decide) (by decide)) rfl rfl (by decide)
    (by decide) (by rw [hinvA, hinvB]; decide)
  have hsuccess : AnswersSuccess
      { store := stored {} db req, responses := tradeResponses {} req true } :=
    answersSuccess_tradeResponses.mpr rfl
  refine ⟨fun hvalid => ?_, ?_, _, hend, hsuccess, by decide +kernel⟩
  · have hlisted := hvalid.offerA.listed
    rw [hinvA] at hlisted
    exact absurd hlisted (by decide)
  · rw [hend]
    exact fun hrejected => hrejected.1 hsuccess

end CKGameServer
