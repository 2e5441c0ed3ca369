import CKGameServer.Buffer.ClientFraming
import CKGameServer.Model.ClientRequest
import CKGameServer.Session.Inbox

/-!
The requests of a client in a run of the whole server.

`ShopManager` and `TradeManager` send with `SendPacket`, under whose header the server reads the id
and the size in one number.

* `ClientRequest.of_headed_wire`, `ClientRequest.read_received`: a request that is sent with
  `SendPacket2` is one packet, from which the server reads what the client has put into it.
* `ClientRequest.swallows`: how many bytes the server takes for a request that is sent with
  `SendPacket`; `ClientRequest.isPacket_append`: it waits for them.
* `ClientRequest.handled_inOrder`: the requests up to the first that is sent with `SendPacket` are
  handled in order. Neither this one nor what is swallowed with it is.
-/

namespace CKGameServer

open Memory RecvBuffer NetworkClient

namespace ClientRequest

variable {r : ClientRequest}

/-! ### `SendPacket2` -/

lemma wire_eq_sendData2 (h : r.routine = .sendPacket2) :
    r.wire = sendData2 r.ePacket r.data := by rw [wire, h]; rfl

lemma length_wire (r : ClientRequest) : r.wire.length = packetHeaderLength + r.data.length := by
  rw [wire, wire_length, Nat.add_comm]
  rfl

lemma isPacket_wire (h : r.routine = .sendPacket2) : IsPacket r.wire := by
  rw [wire_eq_sendData2 h]
  exact isPacket_sendData2 ⟨r.data, r.length_data_le.1⟩

/-- The server reads the packet that was sent. -/
lemma of_headed_wire (h : r.routine = .sendPacket2) :
    ReceivedPacket.of (packetFraming.headed r.wire) = r.received := by
  have hid : packetIdAt (View.ofBytes (packetFraming.headed r.wire).1) 0 = r.ePacket.code := by
    rw [wire_eq_sendData2 h]
    exact (packetIdAt_headed (Nat.le_add_left _ _)).trans (natLE_sendData2Buff_id r.data)
  have hsize : packetLengthAt (View.ofBytes (packetFraming.headed r.wire).1) 0 =
      packetHeaderLength + r.data.length := by
    calc packetFraming.frameLength (r.wire.take packetHeaderLength)
        = packetFraming.frameLength r.wire := frameLength_take_header (isPacket_wire h).1
      _ = packetHeaderLength + r.data.length := by rw [(isPacket_wire h).2, length_wire]
  rw [ReceivedPacket.of, hid, hsize]
  rfl

lemma passes_received (r : ClientRequest) : World.passes r.received = true := by
  have hcode : 201 ≤ r.ePacket.code := code_ge r.ePacket
  exact decide_eq_true (lt_of_lt_of_le (by decide) hcode)

/-- The structure of the server, which is packed, finds the values of the client. -/
lemma read_received (h : r.routine = .sendPacket2) :
    wireFormat.read 1 (View.ofBytes r.received.content) packetHeaderLength
      (r.fields.map Sigma.fst) = r.fields := by
  suffices hread : (View.ofBytes r.received.content).read packetHeaderLength r.data.length =
      r.data from Layout.Format.read_payload hread
  have hdrop : (sendData2 r.ePacket r.data).drop packetHeaderLength = r.data :=
    drop_sendData2 r.data
  rw [← wire_eq_sendData2 h] at hdrop
  calc (View.ofBytes r.wire).read packetHeaderLength r.data.length
      = ((View.ofBytes r.wire).read 0 (packetHeaderLength + r.data.length)).drop
          packetHeaderLength := by rw [View.read_drop, Nat.zero_add]
    _ = r.data := by rw [← length_wire, View.read_ofBytes, hdrop]

/-- The packets of such requests. -/
lemma requests_wire {rs : List ClientRequest} (h : ∀ r ∈ rs, r.routine = .sendPacket2) :
    World.requests (rs.map wire) = rs.map received := by
  rw [World.requests, List.map_map]
  have hmap : rs.map ((ReceivedPacket.of ∘ packetFraming.headed) ∘ wire) = rs.map received :=
    List.map_congr_left fun r hr => of_headed_wire (h r hr)
  rw [hmap, List.filter_eq_self]
  intro p hp
  obtain ⟨r, -, rfl⟩ := List.mem_map.mp hp
  exact r.passes_received

/-! ### `SendPacket` -/

/-- How many bytes the server takes for a request that is sent with `SendPacket`. -/
def swallows (r : ClientRequest) : ℕ :=
  r.ePacket.code % 256 + 256 * (packetHeaderLength + r.data.length)

/-- Where the server looks for the length stand the lower byte of the id and the size. -/
lemma natLE_sendDataBuff_length (packetId : EPacket) (data : Bytes) (h : data.length + 5 < 256) :
    (sendDataBuff packetId data).natLE 0 2 = packetId.code % 256 + 256 * (data.length + 5) := by
  have hid : sendDataBuff packetId data 0 = View.ofNatLE packetId.code 0 := by
    rw [sendDataBuff, View.write_apply_out (.inl (by decide)), View.write_apply_out (.inl (by decide)),
      View.write_apply_in (by omega) (by omega)]
  have hsize : sendDataBuff packetId data 1 = View.ofNatLE (data.length + 5) 0 := by
    rw [sendDataBuff, View.write_apply_out (.inl (by decide)),
      View.write_apply_in (by omega) (by omega)]
    rfl
  rw [View.natLE, View.natLE, View.natLE, hid, hsize]
  simp only [View.ofNatLE, pow_zero, Nat.div_one, UInt8.toNat_ofNat']
  omega

/-- Where it looks for the id, two zeros. -/
lemma natLE_sendDataBuff_id_eq (packetId : EPacket) (data : Bytes) (h : data.length + 5 < 256) :
    (sendDataBuff packetId data).natLE 2 2 = 0 := by
  have hupper : sendDataBuff packetId data 2 = View.ofNatLE (data.length + 5) 1 := by
    rw [sendDataBuff, View.write_apply_out (.inl (by decide)),
      View.write_apply_in (by omega) (by omega)]
    rfl
  have hzero : sendDataBuff packetId data 3 = 0 := by
    rw [sendDataBuff, View.write_apply_out (.inl (by decide)),
      View.write_apply_out (.inr (by omega)), View.write_apply_out (.inr (by omega))]
  rw [View.natLE, View.natLE, View.natLE, hzero, hupper]
  simp only [View.ofNatLE, pow_one, UInt8.toNat_ofNat', UInt8.toNat_zero]
  omega

lemma header_le_length_wire (r : ClientRequest) : packetFraming.header ≤ r.wire.length := by
  rw [length_wire]
  exact Nat.le_add_right packetHeaderLength _

/-- The length that the server reads. -/
lemma frameLength_wire (h : r.routine = .sendPacket) :
    packetFraming.frameLength r.wire = r.swallows := by
  have hsize : packetHeaderLength + r.data.length < 256 := r.length_data_le.2 h
  rw [packetHeaderLength] at hsize
  calc packetFraming.frameLength r.wire
      = (sendDataBuff r.ePacket r.data).natLE 0 2 := by
        rw [wire, h]
        exact natLE_ofBytes_read (by rw [packetBaseSize]; omega)
    _ = r.swallows := by
        rw [natLE_sendDataBuff_length _ _ (by omega), swallows, packetHeaderLength, Nat.add_comm 5]

lemma length_wire_le_swallows (r : ClientRequest) : r.wire.length ≤ r.swallows := by
  rw [length_wire, swallows]
  omega

/-- It is one packet with the bytes that come behind it. -/
lemma isPacket_append (h : r.routine = .sendPacket) {x : Bytes}
    (hx : r.wire.length + x.length = r.swallows) : IsPacket (r.wire ++ x) := by
  refine ⟨?_, ?_⟩
  · rw [List.length_append]
    exact (header_le_length_wire r).trans (Nat.le_add_right _ _)
  · rw [packetFraming.frameLength_append _ _ (header_le_length_wire r), frameLength_wire h,
      List.length_append, hx]

/-- It is not dispatched. -/
lemma requests_swallowed (h : r.routine = .sendPacket) (x : Bytes) :
    World.requests [r.wire ++ x] = [] := by
  have hsize : packetHeaderLength + r.data.length < 256 := r.length_data_le.2 h
  rw [packetHeaderLength] at hsize
  have htake : (packetFraming.headed (r.wire ++ x)).1 = (packetFraming.headed r.wire).1 :=
    List.take_append_of_le_length (header_le_length_wire r)
  have hid : packetIdAt (View.ofBytes (packetFraming.headed (r.wire ++ x)).1) 0 = 0 := by
    rw [htake, wire, h]
    exact (packetIdAt_headed (Nat.le_add_left _ _)).trans
      (natLE_sendDataBuff_id_eq _ _ (by omega))
  have hpasses : World.passes (ReceivedPacket.of (packetFraming.headed (r.wire ++ x))) = false := by
    rw [World.passes, ReceivedPacket.of, hid]
    rfl
  rw [World.requests, List.map_singleton, List.filter_singleton, Function.comp_apply, hpasses]
  rfl

/-! ### A session -/

/-- The requests before the first that is sent with `SendPacket`. -/
def understood (rs : List ClientRequest) : List ClientRequest :=
  rs.takeWhile fun r => r.routine = .sendPacket2

/-- The first request that is sent with `SendPacket`. -/
def firstOld (rs : List ClientRequest) : Option ClientRequest :=
  (rs.dropWhile fun r => r.routine = .sendPacket2).head?

lemma routine_of_mem_understood {rs : List ClientRequest} (h : r ∈ understood rs) :
    r.routine = .sendPacket2 := by
  simpa using List.mem_takeWhile_imp h

/-- Where no request is sent with `SendPacket`, all are understood. -/
lemma understood_of_firstOld_eq_none {rs : List ClientRequest} (h : firstOld rs = none) :
    understood rs = rs := by
  have hnil := List.head?_eq_none_iff.mp h
  calc understood rs
      = understood rs ++ rs.dropWhile fun r => r.routine = .sendPacket2 := by
        rw [hnil, List.append_nil]
    _ = rs := List.takeWhile_append_dropWhile

/-- The others begin with the first that is sent with `SendPacket`. -/
lemma exists_of_firstOld {rs : List ClientRequest} (h : firstOld rs = some r) :
    r.routine = .sendPacket ∧ ∃ post, rs = understood rs ++ r :: post := by
  obtain ⟨post, hpost⟩ := List.head?_eq_some_iff.mp h
  have hsplit : rs = understood rs ++ r :: post := by
    rw [← hpost]
    exact List.takeWhile_append_dropWhile.symm
  have hnot := List.head?_dropWhile_not (fun r : ClientRequest => r.routine = .sendPacket2) rs
  rw [hpost] at hnot
  refine ⟨?_, post, hsplit⟩
  cases hroutine : r.routine with
  | sendPacket => rfl
  | sendPacket2 => simp [hroutine] at hnot

variable {w w' : World} {i : ℕ} {es : List Event} {rs : List ClientRequest} {rest : Bytes}

/-- The stream up to what is swallowed with the first request that is sent with `SendPacket`, as
packets. The bytes that are still to come may be others. -/
lemma exists_packets {arrived : Bytes} (hstream : arrived ++ rest = rs.flatMap wire)
    (hswallows : ∀ r ∈ firstOld rs,
      arrived.length ≤ ((understood rs).flatMap wire).length + r.swallows) :
    ∃ (block : Option Bytes) (rest' : Bytes),
      (∀ x ∈ block, IsPacket x ∧ World.requests [x] = [] ∧
        ∃ r ∈ firstOld rs, x.length = r.swallows) ∧
      arrived ++ rest' = ((understood rs).map wire ++ block.toList).flatten := by
  cases hold : firstOld rs with
  | none =>
      refine ⟨none, rest, by simp, ?_⟩
      rw [hstream, understood_of_firstOld_eq_none hold, Option.toList_none, List.append_nil,
        List.flatMap_def]
  | some r =>
      obtain ⟨hroutine, post, hsplit⟩ := exists_of_firstOld hold
      have hle : arrived.length ≤ ((understood rs).flatMap wire).length + r.swallows :=
        hswallows r hold
      -- What comes behind the request, and zeros where the stream ends before.
      set tail := (post.flatMap wire ++ List.replicate r.swallows 0).take
        (r.swallows - r.wire.length) with htail
      have hlength : r.wire.length + tail.length = r.swallows := by
        have hwire := r.length_wire_le_swallows
        rw [htail, List.length_take, List.length_append, List.length_replicate]
        omega
      have hprefix : arrived <+: (understood rs).flatMap wire ++ (r.wire ++ tail) := by
        have hzeros : arrived <+: (understood rs).flatMap wire ++ (r.wire ++
            (post.flatMap wire ++ List.replicate r.swallows 0)) := by
          refine ⟨rest ++ List.replicate r.swallows 0, ?_⟩
          rw [← List.append_assoc, hstream]
          conv_lhs => rw [hsplit]
          simp only [List.flatMap_append, List.flatMap_cons, List.append_assoc]
        refine List.prefix_of_prefix_length_le hzeros ?_ ?_
        · rw [List.prefix_append_right_inj, List.prefix_append_right_inj]
          exact List.take_prefix _ _
        · rw [List.length_append, List.length_append, hlength]
          exact hle
      obtain ⟨rest', hrest⟩ := hprefix
      refine ⟨some (r.wire ++ tail), rest', ?_, ?_⟩
      · intro x hx
        obtain rfl := Option.some.inj hx
        exact ⟨isPacket_append hroutine hlength, requests_swallowed hroutine tail, r, rfl,
          (List.length_append ..).trans hlength⟩
      · rw [hrest, List.flatten_append, List.flatMap_def, Option.toList_some, List.flatten_singleton]

/-- The next request that is understood, if all of it is there, is what the next packet is as a
request. -/
lemma requests_next {block : Option Bytes} (hblock : ∀ x ∈ block, World.requests [x] = [])
    (k n : ℕ) :
    World.requests (((understood rs).map wire ++ block.toList)[k]?.filter fun x =>
        x.length ≤ n).toList =
      ((understood rs)[min k (understood rs).length]?.filter fun r =>
        r.wire.length ≤ n).toList.map received := by
  by_cases hk : k < (understood rs).length
  · rw [List.getElem?_append_left (by rwa [List.length_map]), List.getElem?_map,
      min_eq_left hk.le, List.getElem?_eq_getElem hk, Option.map_some, Option.filter_some,
      Option.filter_some]
    split
    · have hmem : (understood rs)[k] ∈ understood rs := List.getElem_mem hk
      have hone : ∀ r ∈ [(understood rs)[k]], r.routine = .sendPacket2 := fun r hr =>
        routine_of_mem_understood (List.mem_singleton.mp hr ▸ hmem)
      exact requests_wire hone
    · rfl
  · have hle : (understood rs).length ≤ k := Nat.le_of_not_lt hk
    rw [List.getElem?_append_right (by rwa [List.length_map]), min_eq_right hle,
      List.getElem?_eq_none le_rfl]
    cases hget : block.toList[k - ((understood rs).map wire).length]? with
    | none => rfl
    | some x =>
        have hx : x ∈ block := Option.mem_toList.mp (List.mem_of_getElem? hget)
        rw [Option.filter_some]
        split
        · exact hblock x hx
        · rfl

/-- **The requests of a client are handled up to the first trade or purchase.** In any run in which
the connection of a client does not begin or end, from the moment when its buffer is empty, however
its requests arrive: as long as no more has arrived than is swallowed with the first request that is
sent with `SendPacket`, those handed to `ProcessRecvPacket` are the first of the requests before it,
in order, with all the values of the client. What has come in of the others is in the buffer, but
for what has been swallowed, and the next turn of the client takes the next of them, if all of it is
there. -/
theorem handled_inOrder
    (hclear : (w.server.mUserObjPool i).recv.clear = (w.server.mUserObjPool i).recv)
    (hstream : es.flatMap (World.arrived i) ++ rest = rs.flatMap wire)
    (hspares : Runs.Along World.step (World.Spares i) w es)
    (hrun : Runs.run World.step w es = some w')
    (hswallows : ∀ r ∈ firstOld rs, (es.flatMap (World.arrived i)).length ≤
      ((understood rs).flatMap wire).length + r.swallows) :
    ∃ k ≤ (understood rs).length, ∃ swallowed,
      Runs.outputs World.step (World.dispatched i) w es =
        ((understood rs).take k).map received ∧
      es.flatMap (World.arrived i) = ((understood rs).take k).flatMap wire ++ swallowed ++
        (w'.server.mUserObjPool i).recv.unread ∧
      (swallowed ≠ [] → k = (understood rs).length ∧
        ∃ r ∈ firstOld rs, swallowed.length = r.swallows) ∧
      (∀ env, w'.server.mInComingPacketUserIndex.head? = some i →
        (w'.dispatched i (.clientPacket env)).toList =
          ((understood rs)[k]?.filter fun r =>
            r.wire.length ≤ (w'.server.mUserObjPool i).recv.unread.length).toList.map received) ∧
      ∀ r ∈ understood rs, wireFormat.read 1 (View.ofBytes r.received.content) packetHeaderLength
        (r.fields.map Sigma.fst) = r.fields := by
  obtain ⟨block, rest', hblock, hpackets⟩ := exists_packets hstream hswallows
  have hunderstood : ∀ r ∈ understood rs, r.routine = .sendPacket2 := fun r =>
    routine_of_mem_understood
  obtain ⟨k, -, houts, hsplit, hreceived⟩ := World.exists_dispatched (i := i) hclear (fun x hx => by
    rcases List.mem_append.mp hx with hx | hx
    · obtain ⟨r, hr, rfl⟩ := List.mem_map.mp hx
      exact isPacket_wire (hunderstood r hr)
    · exact (hblock x (Option.mem_toList.mp hx)).1) hpackets hspares hrun
  have hnothing : World.requests block.toList = [] := by
    cases block with
    | none => rfl
    | some x => exact (hblock x rfl).2.1
  have hlast : World.requests (block.toList.take (k - (understood rs).length)) = [] :=
    List.eq_nil_of_sublist_nil (hnothing ▸ World.requests_sublist (List.take_sublist _ _))
  refine ⟨min k (understood rs).length, min_le_right _ _,
    (block.toList.take (k - (understood rs).length)).flatten, ?_, ?_, fun hne => ?_,
    fun env hhead => ?_, fun r hr => read_received (hunderstood r hr)⟩
  · rw [houts, List.take_append, List.length_map, World.requests_append, hlast, List.append_nil,
      ← List.map_take, requests_wire fun r hr => hunderstood r (List.mem_of_mem_take hr),
      ← List.take_eq_take_min]
  · rw [hsplit, List.take_append, List.length_map, List.flatten_append, ← List.map_take,
      ← List.flatMap_def, ← List.take_eq_take_min]
  · -- a packet more than the requests that are understood
    have hlt : (understood rs).length < k := by
      by_contra hle
      rw [Nat.sub_eq_zero_of_le (Nat.le_of_not_lt hle), List.take_zero] at hne
      exact hne rfl
    cases block with
    | none => simp at hne
    | some x =>
        obtain ⟨-, -, r, hr, hlength⟩ := hblock x rfl
        refine ⟨min_eq_right hlt.le, r, hr, ?_⟩
        rw [Option.toList_some, List.take_of_length_le (by rw [List.length_singleton]; omega),
          List.flatten_singleton, hlength]
  · rw [World.dispatched_of_head env hhead, hreceived, ← World.requests_toList]
    exact requests_next (fun x hx => (hblock x hx).2.1) k _

/-- A client enters a room, buys an item and enters again. -/
def purchase : List ClientRequest := [.roomEnter 0, .shopBuy 0 101, .roomEnter 1]

/-- It sends each request on its own, and each has its turn. -/
def purchaseRun : List Event :=
  purchase.flatMap fun r => [.receive 0 (chunk r.wire), .clientPacket {}]

/-- The first is handled, and no other. -/
theorem handled_purchase :
    ∃ w', Runs.run World.step (World.init 3 (fun _ _ => 0) fun _ => none) purchaseRun = some w' ∧
      Runs.outputs World.step (World.dispatched 0)
        (World.init 3 (fun _ _ => 0) fun _ => none) purchaseRun =
          [ClientRequest.roomEnter 0].map received := by
  obtain ⟨w', hrun⟩ : ∃ w', Runs.run World.step (World.init 3 (fun _ _ => 0) fun _ => none)
    purchaseRun = some w' := ⟨_, by rfl⟩
  have hspares : Runs.Along World.step (World.Spares 0)
      (World.init 3 (fun _ _ => 0) fun _ => none) purchaseRun :=
    Runs.Along.of_forall_mem fun e he _ => by
      simp only [purchaseRun, purchase, List.flatMap_cons, List.flatMap_nil, List.cons_append,
        List.nil_append, List.mem_cons, List.not_mem_nil, or_false] at he
      rcases he with rfl | rfl | rfl | rfl | rfl | rfl <;> trivial
  have hstream : purchaseRun.flatMap (World.arrived 0) ++ [] = purchase.flatMap wire := by decide
  obtain ⟨k, hk, -, houts, -⟩ := handled_inOrder rfl hstream hspares hrun (by decide)
  have hone : (Runs.outputs World.step (World.dispatched 0)
      (World.init 3 (fun _ _ => 0) fun _ => none) purchaseRun).length = 1 := by decide +kernel
  obtain rfl : k = 1 := by
    have hle : (((understood purchase).take k).map received).length ≤ k := by simp
    have hunderstood : (understood purchase).length = 1 := by decide
    rw [houts] at hone
    omega
  exact ⟨w', hrun, houts⟩

end ClientRequest

end CKGameServer
