import CKGameServer.Library.Runs
import CKGameServer.Model.TradeManager

/-!
When a client confirms a trade (`TradeManager`).

The confirm button is enabled where a lock event finds both sides locked. Opening the window and
confirming disable it; a partner that unlocks does not, and a lock event after the confirm enables
it again.

* `TradeWindow`: what the client has sent since the window was opened, and whether a lock event has
  found both sides locked after the `TRADE_CONFIRM`.
* `TradeManager.Watched`: the trade manager with its last window.
* `Watched.ConfirmsOnce`: the button is enabled only while both sides are locked, and a window
  sends at most one `TRADE_CONFIRM`.
* `Watched.KeepsConfirm`: the partner does not unlock while the button is enabled, and the
  button is not pressed where it has been enabled again.
* `Watched.confirmsOnce_iff`: the first holds throughout a run exactly if the button is disabled
  at the start and every call meets the second.
-/

namespace CKGameServer

/-- The packet is a `TRADE_CONFIRM`. -/
def TradePacket.isConfirm : TradePacket → Bool
  | tradeConfirm _ => true
  | _ => false

/-- What has happened since the window was opened: the packets sent, and whether a lock event has
found both sides locked after a `TRADE_CONFIRM`. -/
structure TradeWindow where
  packets : List TradePacket := []
  enabledAgain : Bool := false

namespace TradeWindow

/-- The `TRADE_CONFIRM` packets of the window. -/
def confirms (w : TradeWindow) : ℕ := w.packets.countP TradePacket.isConfirm

/-- The window after one more call, which sends `packets` and may find both sides locked. -/
def extend (packets : List TradePacket) (locks : Bool) (w : TradeWindow) : TradeWindow where
  packets := w.packets ++ packets
  enabledAgain := w.enabledAgain || (decide (0 < w.confirms) && locks)

lemma confirms_extend (packets : List TradePacket) (locks : Bool) (w : TradeWindow) :
    (w.extend packets locks).confirms = w.confirms + packets.countP TradePacket.isConfirm :=
  List.countP_append

end TradeWindow

namespace TradeManager

/-- The confirm button can be pressed. -/
def Interactable (m : TradeManager) : Prop := m.myConfirmButton = some true

/-- A lock event finds both sides locked. -/
def locks (m : TradeManager) : TradeEvent → Bool
  | .onClickLock => m.isPartnerLocked
  | .setPartnerLockState isLock => isLock && m.isMyLocked
  | _ => false

/-- The trade manager with its last window, if one has been opened. -/
abbrev Watched := TradeManager × Option TradeWindow

namespace Watched

/-- The window after a call that leads to `m`. -/
def next (s : Watched) (e : TradeEvent) (m : TradeManager) : Option TradeWindow :=
  match e with
  | .openTradeWindow _ => some {}
  | e => s.2.map (TradeWindow.extend (m.sent.drop s.1.sent.length) (s.1.locks e))

/-- One step of the trade manager with its window. -/
def step : Watched → TradeEvent → Option Watched := Runs.withHistory TradeManager.step next

/-- The client when the scene has been loaded. -/
def start (ui : TradeUI) : Watched := (awake ui, none)

/-- **The trade is confirmed once, and locked**: while the button can be pressed both sides are
locked, and the window has sent at most one `TRADE_CONFIRM`. -/
structure ConfirmsOnce (s : Watched) : Prop where
  locked : s.1.Interactable → s.1.isMyLocked = true ∧ s.1.isPartnerLocked = true
  once : ∀ w ∈ s.2, w.confirms ≤ 1

/-- The partner does not unlock while the button can be pressed, and the button is not pressed where
it has been enabled again. -/
def KeepsConfirm (s : Watched) : TradeEvent → Prop
  | .setPartnerLockState isLock => isLock = false → ¬s.1.Interactable
  | .onClickConfirm => s.1.Interactable → ∀ w ∈ s.2, w.enabledAgain = false
  | _ => True

/-- The button of a window that has confirmed can be pressed only where it has been enabled
again. -/
structure Sound (s : Watched) : Prop where
  confirmed : ∀ w ∈ s.2, w.enabledAgain = true → 0 < w.confirms
  enabled : ∀ w ∈ s.2, 0 < w.confirms → s.1.Interactable → w.enabledAgain = true

end Watched

/-! ### The calls -/

variable {m m' : TradeManager} {e : TradeEvent} {packets : List TradePacket}

/-- The calls that have to do with locks and the confirm button. -/
def Trades : TradeEvent → Prop
  | .openTradeWindow _ | .onClickLock | .setPartnerLockState _ | .onClickConfirm => True
  | _ => False

/-- A call leaves the locks and the confirm button as they are, and sends packets that are no
`TRADE_CONFIRM`. -/
structure LeavesTrade (m m' : TradeManager) (packets : List TradePacket) : Prop where
  isMyLocked : m'.isMyLocked = m.isMyLocked
  isPartnerLocked : m'.isPartnerLocked = m.isPartnerLocked
  myConfirmButton : m'.myConfirmButton = m.myConfirmButton
  sent : m'.sent = m.sent ++ packets
  confirms : packets.countP TradePacket.isConfirm = 0

lemma leavesTrade_nil (h : m'.toTradeUI.myConfirmButton = m.toTradeUI.myConfirmButton)
    (hmine : m'.isMyLocked = m.isMyLocked) (hpartner : m'.isPartnerLocked = m.isPartnerLocked)
    (hsent : m'.sent = m.sent) : m.LeavesTrade m' [] :=
  ⟨hmine, hpartner, h, by rw [hsent, List.append_nil], rfl⟩

/-- What is no such call leaves the trade. -/
lemma exists_leavesTrade (he : ¬Trades e) (h : m.step e = some m') :
    ∃ packets, m.LeavesTrade m' packets := by
  cases e with
  | openTradeWindow partnerUUID => exact absurd trivial he
  | onClickLock => exact absurd trivial he
  | setPartnerLockState isLock => exact absurd trivial he
  | onClickConfirm => exact absurd trivial he
  | onRegisterItem slotIndex itemID =>
      obtain rfl := Option.some.inj h
      rw [onRegisterItem]
      split
      · exact ⟨[], leavesTrade_nil rfl rfl rfl rfl⟩
      · exact ⟨[.tradeItemUpdate slotIndex itemID], rfl, rfl, rfl, rfl, rfl⟩
  | setPartnerItem index itemID =>
      obtain rfl := Option.some.inj h
      exact ⟨[], leavesTrade_nil rfl rfl rfl rfl⟩
  | closeTradeWindow =>
      obtain rfl := Option.some.inj h
      rw [closeTradeWindow]
      split <;> exact ⟨[], leavesTrade_nil rfl rfl rfl rfl⟩
  | sendTradeRequest targetUUID =>
      obtain rfl := Option.some.inj h
      exact ⟨[.tradeRequest targetUUID], rfl, rfl, rfl, rfl, rfl⟩
  | showRequestPopup uuid =>
      obtain rfl := Option.some.inj h
      exact ⟨[], leavesTrade_nil rfl rfl rfl rfl⟩
  | onClickAccept =>
      obtain rfl := Option.some.inj h
      exact ⟨[.tradeResponse m.requestSenderUUID true], rfl, rfl, rfl, rfl, rfl⟩
  | onClickReject =>
      obtain rfl := Option.some.inj h
      exact ⟨[.tradeResponse m.requestSenderUUID false], rfl, rfl, rfl, rfl, rfl⟩

/-- `OpenTradeWindow` sends nothing. It resets locks and button, or does not come to it. -/
lemma openTradeWindow_cases (m : TradeManager) (partnerUUID : Int64) :
    (m.openTradeWindow partnerUUID).sent = m.sent ∧
      (¬(m.openTradeWindow partnerUUID).Interactable ∨
        (m.openTradeWindow partnerUUID).isMyLocked = m.isMyLocked ∧
        (m.openTradeWindow partnerUUID).isPartnerLocked = m.isPartnerLocked ∧
        (m.openTradeWindow partnerUUID).myConfirmButton = m.myConfirmButton) := by
  rw [openTradeWindow]
  split
  · exact ⟨rfl, .inr ⟨rfl, rfl, rfl⟩⟩
  · exact ⟨rfl, .inr ⟨rfl, rfl, rfl⟩⟩
  · refine ⟨rfl, .inl ?_⟩
    show ¬m.myConfirmButton.map (fun _ => false) = some true
    cases m.myConfirmButton <;> simp

/-- `CheckConfirmState` enables the button where it finds both sides locked. -/
lemma interactable_checkConfirmState (m : TradeManager) :
    m.checkConfirmState.Interactable ↔
      m.Interactable ∨ m.isMyLocked = true ∧ m.isPartnerLocked = true ∧
        m.myConfirmButton.isSome = true := by
  rw [checkConfirmState, Interactable, Interactable]
  split
  · rename_i hlocked
    rw [Bool.and_eq_true] at hlocked
    cases m.myConfirmButton <;> simp [hlocked]
  · rename_i hlocked
    rw [Bool.and_eq_true] at hlocked
    tauto

lemma checkConfirmState_leaves (m : TradeManager) :
    m.checkConfirmState.isMyLocked = m.isMyLocked ∧
      m.checkConfirmState.isPartnerLocked = m.isPartnerLocked ∧
      m.checkConfirmState.sent = m.sent := by
  rw [checkConfirmState]
  split <;> exact ⟨rfl, rfl, rfl⟩

lemma sent_onClickConfirm (m : TradeManager) :
    m.onClickConfirm.sent = m.sent ++ [.tradeConfirm true] := rfl

/-- A press disables the button. -/
lemma not_interactable_onClickConfirm (m : TradeManager) : ¬m.onClickConfirm.Interactable := by
  show ¬m.myConfirmButton.map (fun _ => false) = some true
  cases m.myConfirmButton <;> simp

/-- `OnClickLock`, which enables the button only where the partner is locked. -/
lemma onClickLock_spec (m : TradeManager) :
    m.onClickLock.isMyLocked = true ∧ m.onClickLock.isPartnerLocked = m.isPartnerLocked ∧
      m.onClickLock.sent = m.sent ++ [.tradeLock true] ∧
      (m.onClickLock.Interactable → m.Interactable ∨ m.isPartnerLocked = true) := by
  obtain ⟨hmine, hpartner, hsent⟩ := checkConfirmState_leaves
    (sendPacket { m with isMyLocked := true, myLockButton := m.myLockButton.map fun _ => false }
      (.tradeLock true))
  refine ⟨hmine, hpartner, hsent, fun h => ?_⟩
  exact ((interactable_checkConfirmState _).mp h).imp id fun h => h.2.1

/-- `SetPartnerLockState`, which never disables the button. -/
lemma setPartnerLockState_spec (m : TradeManager) (isLock : Bool) :
    (m.setPartnerLockState isLock).isMyLocked = m.isMyLocked ∧
      (m.setPartnerLockState isLock).isPartnerLocked = isLock ∧
      (m.setPartnerLockState isLock).sent = m.sent ∧
      (m.Interactable → (m.setPartnerLockState isLock).Interactable) ∧
      ((m.setPartnerLockState isLock).Interactable →
        m.Interactable ∨ isLock = true ∧ m.isMyLocked = true) := by
  obtain ⟨hmine, hpartner, hsent⟩ := checkConfirmState_leaves { m with isPartnerLocked := isLock }
  have hinteractable := interactable_checkConfirmState { m with isPartnerLocked := isLock }
  refine ⟨hmine, hpartner, hsent, fun h => hinteractable.mpr (.inl h), fun h => ?_⟩
  exact (hinteractable.mp h).imp id fun h => ⟨h.2.1, h.1⟩

/-- A call other than `OpenTradeWindow` and `OnClickConfirm` sends no `TRADE_CONFIRM`, and enables
the button only where it finds both sides locked. -/
lemma exists_packets_of_step (hopen : ∀ partnerUUID, e ≠ .openTradeWindow partnerUUID)
    (hconfirm : e ≠ .onClickConfirm) (h : m.step e = some m') :
    ∃ packets, m'.sent = m.sent ++ packets ∧ packets.countP TradePacket.isConfirm = 0 ∧
      (m'.Interactable → m.Interactable ∨ m.locks e = true) := by
  by_cases he : Trades e
  · cases e with
    | openTradeWindow partnerUUID => exact absurd rfl (hopen partnerUUID)
    | onClickConfirm => exact absurd rfl hconfirm
    | onClickLock =>
        obtain rfl := Option.some.inj h
        obtain ⟨-, -, hsent, hinteractable⟩ := m.onClickLock_spec
        exact ⟨_, hsent, rfl, hinteractable⟩
    | setPartnerLockState isLock =>
        obtain rfl := Option.some.inj h
        obtain ⟨-, -, hsent, -, hinteractable⟩ := m.setPartnerLockState_spec isLock
        refine ⟨[], by rw [hsent, List.append_nil], rfl, fun h => (hinteractable h).imp id ?_⟩
        rintro ⟨rfl, hmine⟩
        exact hmine
    | _ => cases he
  · obtain ⟨packets, hleaves⟩ := exists_leavesTrade he h
    refine ⟨packets, hleaves.sent, hleaves.confirms, fun h => .inl ?_⟩
    rw [Interactable, ← hleaves.myConfirmButton]
    exact h

namespace Watched

variable {s : Watched}

/-- The window after a call other than `OpenTradeWindow`. -/
lemma next_of_sent (hopen : ∀ partnerUUID, e ≠ .openTradeWindow partnerUUID)
    (hsent : m.sent = s.1.sent ++ packets) :
    next s e m = s.2.map (TradeWindow.extend packets (s.1.locks e)) := by
  have hdrop : m.sent.drop s.1.sent.length = packets := by rw [hsent, List.drop_left]
  rw [next, hdrop]
  exact hopen

/-! ### The invariant -/

lemma sound_start (ui : TradeUI) : (start ui).Sound := ⟨by simp [start], by simp [start]⟩

/-- A new window has confirmed nothing. -/
lemma sound_open (m : TradeManager) : Sound (m, some {}) := by
  refine ⟨fun w hw hagain => ?_, fun w hw hconfirms => ?_⟩ <;> obtain rfl := Option.some.inj hw
  · cases hagain
  · exact absurd hconfirms (Nat.lt_irrefl 0)

/-- A call that sends no `TRADE_CONFIRM`, and enables the button only where both sides are found
locked. -/
lemma Sound.extend {found : Bool} (hs : s.Sound)
    (hpackets : packets.countP TradePacket.isConfirm = 0)
    (hinteractable : m.Interactable → s.1.Interactable ∨ found = true) :
    Sound (m, s.2.map (TradeWindow.extend packets found)) := by
  refine ⟨fun w' hw' hagain => ?_, fun w' hw' hconfirms hm => ?_⟩
  · obtain ⟨w, hw, rfl⟩ := Option.map_eq_some_iff.mp hw'
    rw [TradeWindow.confirms_extend, hpackets, Nat.add_zero]
    rw [TradeWindow.extend, Bool.or_eq_true, Bool.and_eq_true, decide_eq_true_iff] at hagain
    exact hagain.elim (hs.confirmed w hw) fun h => h.1
  · obtain ⟨w, hw, rfl⟩ := Option.map_eq_some_iff.mp hw'
    rw [TradeWindow.confirms_extend, hpackets, Nat.add_zero] at hconfirms
    rw [TradeWindow.extend, Bool.or_eq_true, Bool.and_eq_true, decide_eq_true_iff]
    exact (hinteractable hm).imp (hs.enabled w hw hconfirms) fun h => ⟨hconfirms, h⟩

/-- **The button of a window that has confirmed** is enabled again by a lock event only. -/
theorem Sound.step (hs : s.Sound) (h : s.1.step e = some m) : Sound (m, next s e m) := by
  by_cases hopen : ∃ partnerUUID, e = .openTradeWindow partnerUUID
  · obtain ⟨partnerUUID, rfl⟩ := hopen
    exact sound_open m
  · have hopen' : ∀ partnerUUID, e ≠ .openTradeWindow partnerUUID := fun u hu => hopen ⟨u, hu⟩
    by_cases hconfirm : e = .onClickConfirm
    · subst hconfirm
      rw [TradeManager.step] at h
      split at h
      · obtain rfl := Option.some.inj h
        rw [next_of_sent hopen' s.1.sent_onClickConfirm]
        refine ⟨fun w' hw' hagain => ?_, fun _ _ _ hm => ?_⟩
        · obtain ⟨w, hw, rfl⟩ := Option.map_eq_some_iff.mp hw'
          rw [TradeWindow.confirms_extend]
          exact Nat.succ_pos _
        · exact absurd hm (not_interactable_onClickConfirm _)
      · cases h
    · obtain ⟨packets, hsent, hpackets, hinteractable⟩ := exists_packets_of_step hopen' hconfirm h
      rw [next_of_sent hopen' hsent]
      exact hs.extend hpackets hinteractable

/-! ### The condition -/

/-- A call that sends no `TRADE_CONFIRM` leaves their number. -/
lemma ConfirmsOnce.extend {found : Bool} (hs : s.ConfirmsOnce)
    (hpackets : packets.countP TradePacket.isConfirm = 0)
    (hlocked : m.Interactable → m.isMyLocked = true ∧ m.isPartnerLocked = true) :
    ConfirmsOnce (m, s.2.map (TradeWindow.extend packets found)) := by
  refine ⟨hlocked, fun w' hw' => ?_⟩
  obtain ⟨w, hw, rfl⟩ := Option.map_eq_some_iff.mp hw'
  rw [TradeWindow.confirms_extend, hpackets]
  exact hs.once w hw

/-- `SetPartnerLockState` keeps the property exactly if it does not unlock while the button can be
pressed. -/
lemma confirmsOnce_setPartnerLockState_iff (hs : s.ConfirmsOnce) (isLock : Bool) :
    ConfirmsOnce (s.1.setPartnerLockState isLock,
        next s (.setPartnerLockState isLock) (s.1.setPartnerLockState isLock)) ↔
      s.KeepsConfirm (.setPartnerLockState isLock) := by
  obtain ⟨hmine, hpartner, hsent, hkept, hinteractable⟩ := s.1.setPartnerLockState_spec isLock
  have hnothing : (s.1.setPartnerLockState isLock).sent = s.1.sent ++ [] := by
    rw [hsent, List.append_nil]
  rw [next_of_sent (fun _ h => by cases h) hnothing]
  constructor
  · rintro hs' rfl hpressed
    have hlocked := (hs'.locked (hkept hpressed)).2
    rw [hpartner] at hlocked
    cases hlocked
  · intro hkeeps
    refine hs.extend rfl fun hpressed => ?_
    rw [hmine, hpartner]
    rcases hinteractable hpressed with hbefore | ⟨hlock, hlocked⟩
    · refine ⟨(hs.locked hbefore).1, ?_⟩
      by_contra hlock
      exact hkeeps (eq_false_of_ne_true hlock) hbefore
    · exact ⟨hlocked, hlock⟩

/-- A press keeps the property exactly if the button has not been enabled again. -/
lemma confirmsOnce_onClickConfirm_iff (hsound : s.Sound) (hpressed : s.1.Interactable) :
    ConfirmsOnce (s.1.onClickConfirm, next s .onClickConfirm s.1.onClickConfirm) ↔
      ∀ w ∈ s.2, w.enabledAgain = false := by
  rw [next_of_sent (fun _ h => by cases h) s.1.sent_onClickConfirm]
  constructor
  · intro hs' w hw
    have honce := hs'.once _ (Option.map_eq_some_iff.mpr ⟨w, hw, rfl⟩)
    rw [TradeWindow.confirms_extend] at honce
    by_contra hagain
    have hconfirmed := hsound.confirmed w hw (eq_true_of_ne_false hagain)
    exact absurd honce (Nat.not_le.mpr (Nat.lt_add_of_pos_left hconfirmed))
  · intro hagain
    refine ⟨fun h => absurd h (not_interactable_onClickConfirm _), fun w' hw' => ?_⟩
    obtain ⟨w, hw, rfl⟩ := Option.map_eq_some_iff.mp hw'
    rw [TradeWindow.confirms_extend]
    have hnone : w.confirms = 0 := by
      by_contra hconfirms
      have := hsound.enabled w hw (Nat.pos_of_ne_zero hconfirms) hpressed
      rw [hagain w hw] at this
      cases this
    rw [hnone]
    exact Nat.le_refl 1

/-- **A call keeps the property exactly if it meets the condition.** -/
lemma confirmsOnce_step_iff (hsound : s.Sound) (hs : s.ConfirmsOnce) (e : TradeEvent) :
    (∀ s', step s e = some s' → ConfirmsOnce s') ↔ s.KeepsConfirm e := by
  rw [step, Runs.forall_withHistory]
  by_cases he : Trades e
  · cases e with
    | openTradeWindow partnerUUID =>
        refine iff_of_true (fun m h => ?_) trivial
        obtain rfl := Option.some.inj h
        refine ⟨fun hpressed => ?_, fun w hw => ?_⟩
        · obtain ⟨-, hreset | ⟨hmine, hpartner, hbutton⟩⟩ :=
            s.1.openTradeWindow_cases partnerUUID
          · exact absurd hpressed hreset
          · rw [hmine, hpartner]
            exact hs.locked (hbutton.symm.trans hpressed)
        · obtain rfl := Option.some.inj hw
          exact Nat.zero_le 1
    | onClickLock =>
        refine iff_of_true (fun m h => ?_) trivial
        obtain rfl := Option.some.inj h
        obtain ⟨hmine, hpartner, hsent, hinteractable⟩ := s.1.onClickLock_spec
        rw [next_of_sent (fun _ h => by cases h) hsent]
        refine hs.extend rfl fun hpressed => ⟨hmine, ?_⟩
        rw [hpartner]
        exact (hinteractable hpressed).elim (fun h => (hs.locked h).2) id
    | setPartnerLockState isLock =>
        rw [← confirmsOnce_setPartnerLockState_iff hs isLock]
        exact ⟨fun h => h _ rfl, fun h m hm => Option.some.inj hm ▸ h⟩
    | onClickConfirm =>
        rw [KeepsConfirm]
        by_cases hpressed : s.1.Interactable
        · rw [imp_iff_right hpressed, ← confirmsOnce_onClickConfirm_iff hsound hpressed,
            TradeManager.step, if_pos (show s.1.myConfirmButton = some true from hpressed)]
          exact ⟨fun h => h _ rfl, fun h m hm => Option.some.inj hm ▸ h⟩
        · rw [TradeManager.step, if_neg (show ¬s.1.myConfirmButton = some true from hpressed)]
          exact iff_of_true (fun m hm => by cases hm) fun h => absurd h hpressed
    | _ => cases he
  · have hkeeps : s.KeepsConfirm e := by
      cases e <;> first | trivial | exact absurd trivial he
    have hopen : ∀ partnerUUID, e ≠ .openTradeWindow partnerUUID := by
      rintro partnerUUID rfl
      exact he trivial
    refine iff_of_true (fun m h => ?_) hkeeps
    obtain ⟨packets, hleaves⟩ := exists_leavesTrade he h
    rw [next_of_sent hopen hleaves.sent]
    refine hs.extend hleaves.confirms fun hpressed => ?_
    rw [hleaves.isMyLocked, hleaves.isPartnerLocked]
    exact hs.locked (hleaves.myConfirmButton.symm.trans hpressed)

/-- **Confirms over a run.** In any order of the calls, the button can be pressed only while both
sides are locked and every window sends at most one `TRADE_CONFIRM`, exactly if the button is
disabled when the scene has been loaded, the partner never unlocks while it is enabled, and it is
never pressed where a lock event has enabled it again after the `TRADE_CONFIRM`. -/
theorem confirmsOnce_iff (ui : TradeUI) (es : List TradeEvent) :
    Runs.Always step ConfirmsOnce (start ui) es ↔
      ui.myConfirmButton ≠ some true ∧ Runs.Along step KeepsConfirm (start ui) es := by
  by_cases hui : ui.myConfirmButton = some true
  · refine iff_of_false (fun h => ?_) fun h => h.1 hui
    have hlocked := (h.head.locked hui).1
    cases hlocked
  · rw [and_iff_right hui]
    exact Runs.always_iff_along (I := Sound)
      (fun s e s' hsound h => by
        obtain ⟨m, hm, rfl⟩ := Option.map_eq_some_iff.mp h
        exact hsound.step hm)
      (fun s e hsound hs => confirmsOnce_step_iff hsound hs e) es (sound_start ui)
      ⟨fun h => absurd h hui, fun w hw => by cases hw⟩

/-- A scene in which the window is there. -/
def tradeUI : TradeUI where
  tradeReqPanel := some false
  tradeWindowPanel := some false
  myLockButton := some true
  myConfirmButton := some false

/-- Both players lock, and the partner unlocks: the button stays enabled. Or both lock, the player
confirms, the partner unlocks and locks again: the player can confirm a second time. -/
theorem not_confirmsOnce :
    ¬Runs.Always step ConfirmsOnce (start tradeUI)
        [.openTradeWindow 7, .onClickLock, .setPartnerLockState true,
          .setPartnerLockState false] ∧
      ¬Runs.Always step ConfirmsOnce (start tradeUI)
        [.openTradeWindow 7, .onClickLock, .setPartnerLockState true, .onClickConfirm,
          .setPartnerLockState false, .setPartnerItem 0 3, .setPartnerLockState true,
          .onClickConfirm] := by
  constructor
  · intro h
    have hlocked := ((h.of_run rfl).locked rfl).2
    cases hlocked
  · intro h
    have honce := (h.of_run rfl).once _ rfl
    exact absurd honce (by decide)

end Watched

end TradeManager

end CKGameServer
