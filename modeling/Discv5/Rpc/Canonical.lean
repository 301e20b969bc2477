import Discv5.Rpc.RoundTrip

/-!
# NODES lists are not read canonically

`Message::decode` checks the header of the whole message against the bytes
that follow it, but in the NODES arm it only reads the header of the list
of records to know that it is a list: the record loop then runs over all
the bytes that are left. A NODES message whose record list announces any
length up to the bytes that follow (an empty list `0xc0`, say) is therefore
read as the NODES response of the same records, and that response encodes
back to other bytes (`decode_nodes_ignores_list_length`).
-/

namespace Discv5

open Rust Rlp Bytes

variable {Enr : Type} {rlp : RlpCodec}

/-- A longer field list gives a longer message. -/
theorem length_encodeFrame_lt (hrlp : rlp.Lawful) (msgType : UInt8) {l₁ l₂ : List UInt8}
    (h : l₁.length < l₂.length) :
    (encodeFrame rlp msgType l₁).length < (encodeFrame rlp msgType l₂).length := by
  have := hrlp.length_encodeHeader_mono true (Nat.le_of_lt h)
  simp only [encodeFrame, List.length_append, List.length_singleton]
  omega

section Nodes

variable {c : EnrCodec Enr}

/-- The NODES arm reads the record loop over everything after a list header,
whatever length the header announces. -/
theorem decodeBody_nodes_any_header (hrlp : rlp.Lawful) (id : RequestId) (total : UInt64) (k : Nat)
    (out : List UInt8) (hk : k ≤ out.length) (hsmall : k < 256 ^ 8) :
    Message.decodeBody rlp c 4 id (rlp.encodeUint total.toNat ++ (rlp.encodeHeader ⟨true, k⟩ ++ out)) =
      (do
        let (nodes, payload) ← decodeNodesLoop rlp c out.length out
        if payload ≠ [] then throw (.custom "Payload should be empty")
        pure (.response ⟨id, .nodes total nodes⟩)) := by
  have htotal := decodeUint64_encode hrlp total (rlp.encodeHeader ⟨true, k⟩ ++ out)
  have hheader := hrlp.decodeHeader_encodeHeader ⟨true, k⟩ out hk hsmall (by simp)
  simp only [Message.decodeBody, liftRlp, htotal, Outcome.ofExcept_ok, Outcome.ok_bind, hheader]
  simp

/-- A NODES response of records with two-byte headers is also read from the
bytes that give its record list the empty-list header `0xc0`: decoding is
not canonical. -/
theorem decode_nodes_ignores_list_length (hrlp : rlp.Lawful) (hc : c.Lawful) (hf : c.ListFramed rlp)
    (id : RequestId) (total : UInt64) (nodes : List Enr) (hne : nodes ≠ [])
    (hsize : ∀ e ∈ nodes, 58 ≤ (c.encode e).length ∧ (c.encode e).length ≤ 257)
    (hsmall : ((Message.response ⟨id, .nodes total nodes⟩ : Message Enr).encode rlp c).length < 256 ^ 8) :
    let d := encodeFrame rlp 4 (rlp.encodeBytes id.bytes ++
      (rlp.encodeUint total.toNat ++ (rlp.encodeHeader ⟨true, 0⟩ ++ nodes.flatMap c.encode)))
    Message.decode rlp c d = .ok (.response ⟨id, .nodes total nodes⟩) ∧
      (Message.response ⟨id, .nodes total nodes⟩ : Message Enr).encode rlp c ≠ d := by
  obtain ⟨idBytes⟩ := id
  intro d
  have henc : (Message.response ⟨⟨idBytes⟩, .nodes total nodes⟩ : Message Enr).encode rlp c =
      encodeFrame rlp 4 (rlp.encodeBytes idBytes ++ (rlp.encodeUint total.toNat ++
        (rlp.encodeHeader ⟨true, (nodes.flatMap c.encode).length⟩ ++ nodes.flatMap c.encode))) := by
    simp only [Message.encode, Response.encode, encodeNodes_eq hrlp, List.append_assoc]
    rfl
  -- the record list holds at least one record of 58 bytes, so its own header has two bytes
  have hlong : 58 ≤ (nodes.flatMap c.encode).length := by
    obtain ⟨e, es, rfl⟩ := List.exists_cons_of_ne_nil hne
    have := (hsize e List.mem_cons_self).1
    simp only [List.flatMap_cons, List.length_append]
    omega
  have hheader : 2 ≤ (rlp.encodeHeader ⟨true, (nodes.flatMap c.encode).length⟩).length := by
    rw [hrlp.length_encodeHeader]
    have := byteLength_pos (show 0 < (nodes.flatMap c.encode).length by omega)
    dsimp only
    split_ifs <;> omega
  have hzero : (rlp.encodeHeader ⟨true, 0⟩).length = 1 := by
    rw [hrlp.length_encodeHeader]
    rfl
  have hshorter : d.length <
      ((Message.response ⟨⟨idBytes⟩, .nodes total nodes⟩ : Message Enr).encode rlp c).length := by
    rw [henc]
    apply length_encodeFrame_lt hrlp
    simp only [List.length_append]
    omega
  refine ⟨?_, fun heq => absurd (heq ▸ hshorter) (Nat.lt_irrefl _)⟩
  rw [decode_encodeFrame hrlp c 4 idBytes _ (Nat.lt_trans hshorter hsmall)]
  change Message.decodeBody rlp c 4 ⟨idBytes⟩ _ = _
  rw [decodeBody_nodes_any_header hrlp _ total 0 _ (Nat.zero_le _) (by decide),
    decodeNodesLoop_flatMap hrlp hc hf nodes _ (Nat.le_refl _) hsize]
  simp

end Nodes

/-- The record of 56 zero bytes, whose encoding has 58 bytes. -/
def narrowZeroRecord : Arr UInt8 56 := ⟨List.replicate 56 0, List.length_replicate⟩

/-- The NODES response with one 58-byte record also decodes from the bytes
with `0xc0` as its record list's header, which it does not encode to. -/
theorem decode_nodes_ignores_list_length_narrow :
    let c := fixedRecordCodec .reference 56
    let d := encodeFrame .reference 4 (RlpCodec.reference.encodeBytes [1] ++
      (RlpCodec.reference.encodeUint 1 ++ (RlpCodec.reference.encodeHeader ⟨true, 0⟩ ++
        [narrowZeroRecord].flatMap c.encode)))
    c.Lawful ∧ c.ListFramed .reference ∧ [narrowZeroRecord] ≠ [] ∧
      (∀ e ∈ [narrowZeroRecord], 58 ≤ (c.encode e).length ∧ (c.encode e).length ≤ 257) ∧
      ((Message.response ⟨⟨[1]⟩, .nodes 1 [narrowZeroRecord]⟩ : Message (Arr UInt8 56)).encode
        .reference c).length < 256 ^ 8 ∧
      Message.decode .reference c d = .ok (.response ⟨⟨[1]⟩, .nodes 1 [narrowZeroRecord]⟩) ∧
      (Message.response ⟨⟨[1]⟩, .nodes 1 [narrowZeroRecord]⟩ : Message (Arr UInt8 56)).encode
        .reference c ≠ d := by
  have hn : (56 : Nat) < 256 ^ 8 := by decide
  have hsize : ∀ e ∈ [narrowZeroRecord], 58 ≤ ((fixedRecordCodec .reference 56).encode e).length ∧
      ((fixedRecordCodec .reference 56).encode e).length ≤ 257 := by
    intro e _
    rw [fixedRecordCodec_length]
    decide
  have hsmall : ((Message.response ⟨⟨[1]⟩, .nodes 1 [narrowZeroRecord]⟩ : Message (Arr UInt8 56)).encode
      .reference (fixedRecordCodec .reference 56)).length < 256 ^ 8 := by
    decide
  have hlawful := fixedRecordCodec_lawful RlpCodec.reference_lawful hn
  exact ⟨hlawful, fixedRecordCodec_listFramed hn, List.cons_ne_nil _ _, hsize, hsmall,
    decode_nodes_ignores_list_length RlpCodec.reference_lawful hlawful (fixedRecordCodec_listFramed hn)
      ⟨[1]⟩ 1 [narrowZeroRecord] (List.cons_ne_nil _ _) hsize hsmall⟩

end Discv5
