import Mathlib.Data.Multiset.AddSub
import CKGameServer.Trade.Exchange

/-!
What a trade is for, and when the trade branch does it.

* `ValidOffer`, `TradeCorrect`: an offer of items the giver owns, and the exchange of two offers.
* `exchanged_correct`: where A offers nothing the loop does the exchange.
* `eq_nil_of_traded`: where A offers something it never does.
* `tradeAnswers_iff_offersFit`: the answer is success exactly if the offers fit.
* `tradeCorrect_iff`: the trades the branch does correctly.
-/

namespace CKGameServer

open Memory FillEmpty

/-! ### Offers and trades -/

/-- An offer of slots of an inventory: no slot past the end, none twice, and the items listed
are those in the slots. -/
structure ValidOffer (inven slots ids : Inventory) : Prop where
  inRange : SlotsInRange slots
  distinct : ∀ k l, 0 ≤ (slots k).toInt → slots k = slots l → k = l
  listed : (exchangeQueue ids : Multiset Int32) = itemsAt (IsOffered slots) inven

/-- Of the inventory `inven` the slots `slots` go, with the items `given`, and the items `taken`
come in. -/
structure Traded (inven slots inven' : Inventory) (given taken : Multiset Int32) : Prop where
  holds : items inven' = items inven - given + taken
  keeps : ∀ i, ¬IsOffered slots i → inven i ≠ 0 → inven' i = inven i

/-- **What a trade is for**: the offers of A and B change hands, and together they hold what they
held before. -/
structure TradeCorrect (db db' : Store) (req : RedisTradeReq) : Prop where
  tradedA : Traded (inventoryAt db req.userAID) req.itemsASlot (inventoryAt db' req.userAID)
    (exchangeQueue req.itemsAID) (exchangeQueue req.itemsBID)
  tradedB : Traded (inventoryAt db req.userBID) req.itemsBSlot (inventoryAt db' req.userBID)
    (exchangeQueue req.itemsBID) (exchangeQueue req.itemsAID)
  conserved : items (inventoryAt db' req.userAID) + items (inventoryAt db' req.userBID) =
    items (inventoryAt db req.userAID) + items (inventoryAt db req.userBID)

namespace ValidOffer

variable {inven slots ids : Inventory}

/-- The offered items and what is left make up the inventory. -/
lemma items_clear (h : ValidOffer inven slots ids) :
    items (clear (IsOffered slots) inven) + exchangeQueue ids = items inven := by
  rw [h.listed]
  exact FillEmpty.items_clear _ _

lemma items_sub (h : ValidOffer inven slots ids) :
    items inven - exchangeQueue ids = items (clear (IsOffered slots) inven) := by
  rw [← h.items_clear, Multiset.add_sub_cancel_right]

end ValidOffer

/-- Two valid offers that change hands leave what A and B hold together. -/
lemma Traded.conserved {slotsA slotsB invenA invenB invenA' invenB' idsA idsB : Inventory}
    (hA : ValidOffer invenA slotsA idsA) (hB : ValidOffer invenB slotsB idsB)
    (htradedA : Traded invenA slotsA invenA' (exchangeQueue idsA) (exchangeQueue idsB))
    (htradedB : Traded invenB slotsB invenB' (exchangeQueue idsB) (exchangeQueue idsA)) :
    items invenA' + items invenB' = items invenA + items invenB := by
  calc items invenA' + items invenB'
      = (items (clear (IsOffered slotsA) invenA) + exchangeQueue idsB) +
          (items (clear (IsOffered slotsB) invenB) + exchangeQueue idsA) := by
        rw [htradedA.holds, htradedB.holds, hA.items_sub, hB.items_sub]
    _ = (items (clear (IsOffered slotsA) invenA) + exchangeQueue idsA) +
          (items (clear (IsOffered slotsB) invenB) + exchangeQueue idsB) := by ac_rfl
    _ = items invenA + items invenB := by rw [hA.items_clear, hB.items_clear]

section Branch

variable {env : RedisEnv} {db : Store} {req : RedisTradeReq} {a b : Inventory}

/-! ### The arrays of the loop -/

/-- **Where A offers nothing** and the offers fit, the loop does the exchange. -/
theorem exchanged_correct (hA : ValidOffer a req.itemsASlot req.itemsAID)
    (hB : ValidOffer b req.itemsBSlot req.itemsBID) (hnil : exchangeQueue req.itemsAID = [])
    (hfit : OffersFit req a b) :
    Traded a req.itemsASlot (exchanged req a b).arrayA (exchangeQueue req.itemsAID)
        (exchangeQueue req.itemsBID) ∧
      Traded b req.itemsBSlot (exchanged req a b).arrayB (exchangeQueue req.itemsBID)
        (exchangeQueue req.itemsAID) := by
  have harrayA : (exchanged req a b).arrayA = (fill (List.finRange inventorySize)
      (clear (IsOffered req.itemsASlot) a) (exchangeQueue req.itemsBID)).1 :=
    exchange_foldl_nil _ _ hnil
  have hrest : (fill (List.finRange inventorySize) (clear (IsOffered req.itemsASlot) a)
      (exchangeQueue req.itemsBID)).2 = [] := by
    rw [fill_queue (List.nodup_finRange inventorySize)]
    exact List.drop_eq_nil_of_le hfit.1
  constructor
  · constructor
    · have hfill : items (fill (List.finRange inventorySize) (clear (IsOffered req.itemsASlot) a)
          (exchangeQueue req.itemsBID)).1 + _ = _ := items_fill fun item => exchangeQueue_ne_zero
      rw [hrest, Multiset.coe_nil, Multiset.add_zero] at hfill
      rw [harrayA, hfill, hA.items_sub]
    · intro i hi hne
      have hclear : clear (IsOffered req.itemsASlot) a i = a i := clear_of_not_isOffered hi
      rw [harrayA, fill_of_ne_zero (by rwa [hclear]), hclear]
  · constructor
    · rw [exchanged_arrayB, hB.items_sub, hnil, Multiset.coe_nil, Multiset.add_zero]
    · intro i hi _
      rw [exchanged_arrayB, clear_of_not_isOffered hi]

/-- **B receives nothing**: a trade that ends with the array of B is correct only if A offers
nothing. -/
theorem eq_nil_of_traded (hB : ValidOffer b req.itemsBSlot req.itemsBID)
    (h : Traded b req.itemsBSlot (exchanged req a b).arrayB (exchangeQueue req.itemsBID)
      (exchangeQueue req.itemsAID)) : exchangeQueue req.itemsAID = [] := by
  have hitems := h.holds
  rw [exchanged_arrayB, hB.items_sub] at hitems
  have hzero : (exchangeQueue req.itemsAID : Multiset Int32) = 0 := left_eq_add.mp hitems
  exact (Multiset.coe_eq_zero _).mp hzero

/-- An inventory that stays as it is has been traded if the two offers are the same items. -/
lemma traded_self_iff {inven slots ids : Inventory} (h : ValidOffer inven slots ids)
    {taken : Multiset Int32} :
    Traded inven slots inven (exchangeQueue ids) taken ↔
      (exchangeQueue ids : Multiset Int32) = taken := by
  constructor
  · intro htraded
    have hitems := htraded.holds
    rw [h.items_sub, ← h.items_clear] at hitems
    exact Multiset.add_right_inj.mp hitems
  · rintro rfl
    refine ⟨?_, fun _ _ _ => rfl⟩
    rw [h.items_sub, h.items_clear]

/-! ### The branch -/

/-- Two stored inventories are read if Redis answers. -/
lemma loads_of_holdsInventory (hA : HoldsInventory db req.userAID)
    (hB : HoldsInventory db req.userBID) (h0 : env.replies 0 = true) (h1 : env.replies 1 = true) :
    Loads env db req (inventoryAt db req.userAID) (inventoryAt db req.userBID) := by
  obtain ⟨hashA, a, hdbA, hinvA⟩ := hA
  obtain ⟨hashB, b, hdbB, hinvB⟩ := hB
  rw [inventoryAt_eq hdbA hinvA, inventoryAt_eq hdbB hinvB]
  exact ⟨_, _, h0 ▸ hgetall_isInventory hdbA hinvA, h1 ▸ hgetall_isInventory hdbB hinvB,
    loadSlots_isInventory hinvA _, loadSlots_isInventory hinvB _⟩

/-- The database after the transaction of a trade. -/
def stored (env : RedisEnv) (db : Store) (req : RedisTradeReq) : Store :=
  db.multiExec (fun k => env.replies (k + 2))
    (tradeCommands (invenKey req.userAID) (invenKey req.userBID)
      (exchanged req (inventoryAt db req.userAID) (inventoryAt db req.userBID)).arrayA
      (exchanged req (inventoryAt db req.userAID) (inventoryAt db req.userBID)).arrayB)

/-- The trade of two stored inventories that the offers fit. -/
lemma requestTradeExchange_stored (hholdsA : HoldsInventory db req.userAID)
    (hholdsB : HoldsInventory db req.userBID) (h0 : env.replies 0 = true)
    (h1 : env.replies 1 = true) (hA : SlotsInRange req.itemsASlot)
    (hB : SlotsInRange req.itemsBSlot)
    (hfit : OffersFit req (inventoryAt db req.userAID) (inventoryAt db req.userBID)) :
    requestTradeExchange env db req =
      .ok { store := stored env db req, responses := tradeResponses env req true } := by
  rw [requestTradeExchange_of_loads (loads_of_holdsInventory hholdsA hholdsB h0 h1) hA hB,
    if_pos hfit, stored]

/-- The trades that leave the branch right although they answer success: Redis does not give both
inventories, an item finds no place, or A offers nothing. If Redis discards the transaction, the
two offers are the same items. -/
def TradeSafe (env : RedisEnv) (db : Store) (req : RedisTradeReq) : Prop :=
  env.replies 0 = false ∨ env.replies 1 = false ∨
    ¬OffersFit req (inventoryAt db req.userAID) (inventoryAt db req.userBID) ∨
    if Commits env then exchangeQueue req.itemsAID = []
    else (exchangeQueue req.itemsAID : Multiset Int32) = exchangeQueue req.itemsBID

/-- A trade between two inventories that stay as they are. -/
lemma tradeCorrect_self_iff
    (hA : ValidOffer (inventoryAt db req.userAID) req.itemsASlot req.itemsAID)
    (hB : ValidOffer (inventoryAt db req.userBID) req.itemsBSlot req.itemsBID) :
    TradeCorrect db db req ↔
      (exchangeQueue req.itemsAID : Multiset Int32) = exchangeQueue req.itemsBID := by
  constructor
  · exact fun h => (traded_self_iff hA).mp h.tradedA
  · exact fun h => ⟨(traded_self_iff hA).mpr h, (traded_self_iff hB).mpr h.symm, rfl⟩

/-- After a transaction that commits the trade is correct exactly if A offers nothing. -/
lemma tradeCorrect_committed_iff (hids : req.userAID ≠ req.userBID)
    (hholdsA : HoldsInventory db req.userAID) (hholdsB : HoldsInventory db req.userBID)
    (hA : ValidOffer (inventoryAt db req.userAID) req.itemsASlot req.itemsAID)
    (hB : ValidOffer (inventoryAt db req.userBID) req.itemsBSlot req.itemsBID)
    (hfit : OffersFit req (inventoryAt db req.userAID) (inventoryAt db req.userBID))
    (hcommits : Commits env) :
    TradeCorrect db (stored env db req) req ↔ exchangeQueue req.itemsAID = [] := by
  obtain ⟨hstoredA, hstoredB⟩ := inventoryAt_trade hcommits hids hholdsA hholdsB
    (exchanged req (inventoryAt db req.userAID) (inventoryAt db req.userBID)).arrayA
    (exchanged req (inventoryAt db req.userAID) (inventoryAt db req.userBID)).arrayB
  constructor
  · intro h
    have htradedB := h.tradedB
    rw [stored, hstoredB] at htradedB
    exact eq_nil_of_traded hB htradedB
  · intro hnil
    obtain ⟨htradedA, htradedB⟩ := exchanged_correct hA hB hnil hfit
    rw [← hstoredA] at htradedA
    rw [← hstoredB] at htradedB
    exact ⟨htradedA, htradedB, Traded.conserved hA hB htradedA htradedB⟩

/-- **The correct trades.** -/
theorem tradeCorrect_iff (env : RedisEnv) (db : Store) (req : RedisTradeReq)
    (hids : req.userAID ≠ req.userBID)
    (hholdsA : HoldsInventory db req.userAID) (hholdsB : HoldsInventory db req.userBID)
    (hA : ValidOffer (inventoryAt db req.userAID) req.itemsASlot req.itemsAID)
    (hB : ValidOffer (inventoryAt db req.userBID) req.itemsBSlot req.itemsBID)
    (hmulti : env.replies 2 = true) :
    (∀ out, requestTradeExchange env db req = .ok out → AnswersSuccess out →
        TradeCorrect db out.store req) ↔ TradeSafe env db req := by
  by_cases hreplies : env.replies 0 = true ∧ env.replies 1 = true
  · by_cases hfit : OffersFit req (inventoryAt db req.userAID) (inventoryAt db req.userBID)
    · have hend := requestTradeExchange_stored hholdsA hholdsB hreplies.1 hreplies.2 hA.inRange
        hB.inRange hfit
      have houtcome : (∀ out, requestTradeExchange env db req = .ok out → AnswersSuccess out →
          TradeCorrect db out.store req) ↔ TradeCorrect db (stored env db req) req := by
        constructor
        · exact fun h => h _ hend (answersSuccess_tradeResponses.mpr rfl)
        · rintro h out hout -
          obtain rfl := Except.ok.inj (hend.symm.trans hout)
          exact h
      have hsafe : TradeSafe env db req ↔ if Commits env then exchangeQueue req.itemsAID = []
          else (exchangeQueue req.itemsAID : Multiset Int32) = exchangeQueue req.itemsBID := by
        simp [TradeSafe, hreplies, hfit]
      rw [houtcome, hsafe]
      by_cases hcommits : Commits env
      · rw [if_pos hcommits, tradeCorrect_committed_iff hids hholdsA hholdsB hA hB hfit hcommits]
      · rw [if_neg hcommits, stored, multiExec_of_not_commits hmulti hcommits,
          tradeCorrect_self_iff hA hB]
    · have hend := requestTradeExchange_of_loads
        (loads_of_holdsInventory hholdsA hholdsB hreplies.1 hreplies.2) hA.inRange hB.inRange
      rw [if_neg hfit] at hend
      refine iff_of_true (fun out hout hsuccess => ?_) (.inr (.inr (.inl hfit)))
      obtain rfl := Except.ok.inj (hend.symm.trans hout)
      cases answersSuccess_tradeResponses.mp hsuccess
  · have hloads : ∀ a b, ¬Loads env db req a b := by
      rintro a b ⟨invenA, invenB, hgetA, hgetB, -, -⟩
      exact hreplies ⟨reply_of_hgetall hgetA, reply_of_hgetall hgetB⟩
    refine iff_of_true (fun out hout hsuccess => ?_) ?_
    · exact absurd hsuccess (not_answersSuccess_of_not_loads hloads hout).1
    · rw [TradeSafe]
      grind

/-! ### The answers -/

/-- An answer to a trade for one of its users. -/
structure IsTradeAnswer (response : RedisTask) (user : Int32) (isSuccess : Prop) : Prop where
  taskID : response.taskID = .responseTradeExchange
  userIndex : response.userIndex = user.toUInt32.toNat
  success : tradeSuccessAt response.pData = true ↔ isSuccess

/-- The response of a trade carries its `IsSuccess`. -/
lemma isTradeAnswer_make (user : Int32) (isSuccess : Bool) :
    IsTradeAnswer (RedisTask.make user.toUInt32.toNat .responseTradeExchange redisTradeResSize
      (redisTradeRes env.stack isSuccess) env.heap) user (isSuccess = true) :=
  ⟨rfl, rfl, by rw [tradeSuccessAt_make]⟩

/-- **A trade succeeds exactly if the offers fit**: with every command answered both users get
the answer, and where the offers do not fit the database stays as it is. -/
theorem tradeAnswers_iff_offersFit (env : RedisEnv) (db : Store) (req : RedisTradeReq)
    (hholdsA : HoldsInventory db req.userAID) (hholdsB : HoldsInventory db req.userBID)
    (hA : SlotsInRange req.itemsASlot) (hB : SlotsInRange req.itemsBSlot)
    (hreplies : ∀ k, env.replies k = true) :
    ∃ out responseA responseB, requestTradeExchange env db req = .ok out ∧
      out.responses = [responseA, responseB] ∧
      IsTradeAnswer responseA req.userA
        (OffersFit req (inventoryAt db req.userAID) (inventoryAt db req.userBID)) ∧
      IsTradeAnswer responseB req.userB
        (OffersFit req (inventoryAt db req.userAID) (inventoryAt db req.userBID)) ∧
      (¬OffersFit req (inventoryAt db req.userAID) (inventoryAt db req.userBID) →
        out.store = db) := by
  have hend := requestTradeExchange_of_loads
    (loads_of_holdsInventory hholdsA hholdsB (hreplies 0) (hreplies 1)) hA hB
  by_cases hfit : OffersFit req (inventoryAt db req.userAID) (inventoryAt db req.userBID)
  · rw [if_pos hfit] at hend
    refine ⟨_, _, _, hend, rfl, ?_, ?_, fun hnot => absurd hfit hnot⟩
    · simpa [hfit] using @isTradeAnswer_make env req.userA true
    · simpa [hfit] using @isTradeAnswer_make env req.userB true
  · rw [if_neg hfit] at hend
    refine ⟨_, _, _, hend, rfl, ?_, ?_, fun _ => rfl⟩
    · simpa [hfit] using @isTradeAnswer_make env req.userA false
    · simpa [hfit] using @isTradeAnswer_make env req.userB false

end Branch

/-! ### Two trades -/

/-- An inventory, or an offer, with one entry `x` in front and `rest` behind it. -/
def oneItem (x rest : Int32) : Inventory := Fin.cons x fun _ => rest

/-- A trade of the users `a` and `b`. -/
def tradeOf (itemsASlot itemsAID itemsBSlot itemsBID : Inventory) : RedisTradeReq where
  userA := 0
  userB := 1
  userAID := [97]
  userBID := [98]
  itemsASlot := itemsASlot
  itemsAID := itemsAID
  itemsBSlot := itemsBSlot
  itemsBID := itemsBID
  zero_notMem_userAID := by decide
  zero_notMem_userBID := by decide

/-- The database with the inventories of `a` and `b`. -/
abbrev inventoriesOfAB : Inventory → Inventory → Store := inventoriesOf [97] [98]

/-- The inventory of A is full and stays so: B cannot give its item 102 away. -/
theorem tradeAnswers_full :
    ∃ out responseA responseB, requestTradeExchange default
        (inventoriesOfAB (oneItem 101 101) (oneItem 102 0))
        (tradeOf (oneItem (-1) (-1)) (oneItem 0 0) (oneItem 0 (-1)) (oneItem 102 0)) = .ok out ∧
      out.responses = [responseA, responseB] ∧ IsTradeAnswer responseA 0 False ∧
      IsTradeAnswer responseB 1 False ∧
      out.store = inventoriesOfAB (oneItem 101 101) (oneItem 102 0) := by
  obtain ⟨out, responseA, responseB, hout, hresponses, hA, hB, hstore⟩ :=
    tradeAnswers_iff_offersFit default (inventoriesOfAB (oneItem 101 101) (oneItem 102 0))
      (tradeOf (oneItem (-1) (-1)) (oneItem 0 0) (oneItem 0 (-1)) (oneItem 102 0))
      (holdsInventory_inventoriesOf_left _ _ (by decide))
      (holdsInventory_inventoriesOf_right _ _ (by decide) (by decide)) (by decide) (by decide)
      fun _ => rfl
  have hinvA : inventoryAt (inventoriesOfAB (oneItem 101 101) (oneItem 102 0)) [97] =
      oneItem 101 101 := inventoryAt_inventoriesOf_left _ _ (by decide)
  have hinvB : inventoryAt (inventoriesOfAB (oneItem 101 101) (oneItem 102 0)) [98] =
      oneItem 102 0 := inventoryAt_inventoriesOf_right _ _ (by decide) (by decide)
  simp only [tradeOf, hinvA, hinvB] at hA hB hstore
  rw [eq_false (by decide : ¬OffersFit _ _ _)] at hA hB
  exact ⟨out, responseA, responseB, hout, hresponses, hA, hB, hstore (by decide)⟩

/-- B gives item 102 away for nothing, and A receives it. -/
theorem tradeCorrect_gift :
    let db := inventoriesOfAB (oneItem 0 0) (oneItem 102 0)
    let req := tradeOf (oneItem (-1) (-1)) (oneItem 0 0) (oneItem 0 (-1)) (oneItem 102 0)
    ∀ out, requestTradeExchange {} db req = .ok out → AnswersSuccess out →
      TradeCorrect db out.store req := by
  intro db req
  have hinvA : inventoryAt db req.userAID = oneItem 0 0 :=
    inventoryAt_inventoriesOf_left _ _ (by decide)
  have hinvB : inventoryAt db req.userBID = oneItem 102 0 :=
    inventoryAt_inventoriesOf_right _ _ (by decide) (by decide)
  refine (tradeCorrect_iff {} db req (by decide)
    (holdsInventory_inventoriesOf_left _ _ (by decide))
    (holdsInventory_inventoriesOf_right _ _ (by decide) (by decide)) ?_ ?_ rfl).mpr ?_
  · rw [hinvA]
    exact ⟨by decide, by decide, by decide⟩
  · rw [hinvB]
    exact ⟨by decide, by decide, by decide⟩
  · exact .inr (.inr (.inr (by rw [if_pos (by decide)]; decide)))

/-- A offers item 101 for item 102 of B: the answer is success, B receives nothing and item 102
is gone. -/
theorem trade_loses_item :
    let db := inventoriesOfAB (oneItem 101 0) (oneItem 102 0)
    let req := tradeOf (oneItem 0 (-1)) (oneItem 101 0) (oneItem 0 (-1)) (oneItem 102 0)
    req.userAID ≠ req.userBID ∧ HoldsInventory db req.userAID ∧ HoldsInventory db req.userBID ∧
      ValidOffer (inventoryAt db req.userAID) req.itemsASlot req.itemsAID ∧
      ValidOffer (inventoryAt db req.userBID) req.itemsBSlot req.itemsBID ∧
      ∃ out, requestTradeExchange {} db req = .ok out ∧ AnswersSuccess out ∧
        ¬TradeCorrect db out.store req := by
  intro db req
  have hinvA : inventoryAt db req.userAID = oneItem 101 0 :=
    inventoryAt_inventoriesOf_left _ _ (by decide)
  have hinvB : inventoryAt db req.userBID = oneItem 102 0 :=
    inventoryAt_inventoriesOf_right _ _ (by decide) (by decide)
  have hholdsA : HoldsInventory db req.userAID :=
    holdsInventory_inventoriesOf_left _ _ (by decide)
  have hholdsB : HoldsInventory db req.userBID :=
    holdsInventory_inventoriesOf_right _ _ (by decide) (by decide)
  have hend : requestTradeExchange {} db req = _ := requestTradeExchange_stored hholdsA hholdsB rfl
    rfl (by decide) (by decide) (by rw [hinvA, hinvB]; decide)
  refine ⟨by decide, hholdsA, hholdsB, ?_, ?_, _, hend, answersSuccess_tradeResponses.mpr rfl, ?_⟩
  · rw [hinvA]
    exact ⟨by decide, by decide, by decide⟩
  · rw [hinvB]
    exact ⟨by decide, by decide, by decide⟩
  · intro h
    have hlost : items (inventoryAt (stored {} db req) req.userAID) +
        items (inventoryAt (stored {} db req) req.userBID) = {101} := by decide +kernel
    have hconserved : {101} = items (inventoryAt db req.userAID) +
        items (inventoryAt db req.userBID) := by rw [← hlost, ← h.conserved]
    rw [hinvA, hinvB] at hconserved
    exact absurd hconserved (by decide)

end CKGameServer
