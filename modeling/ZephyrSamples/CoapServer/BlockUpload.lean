import ZephyrSamples.CoapServer.Server

/-!
# Block-wise uploads

`large_update_put` and `large_create_post` with their transfer contexts and the reply they send.
The second is a copy of the first with the test of the payload turned round, so the two agree on a
block exactly if it is the last, or neither can answer it. -/

namespace ZephyrSamples
namespace CoapServer
namespace BlockUpload

/-- `enum coap_block_size` -/
inductive BlockSize
  | block16 | block32 | block64 | block128 | block256 | block512 | block1024
  deriving DecidableEq

/-- `struct coap_block_context` -/
structure BlockContext where
  totalSize : Nat
  current : Nat
  blockSize : BlockSize
  deriving DecidableEq

def coapBlockTransferInit (blockSize : BlockSize) (totalSize : Nat) : BlockContext where
  totalSize := totalSize
  current := 0
  blockSize := blockSize

/-- What the calls of a handler come to: `coap_update_from_block` with the context it leaves,
`k_malloc`, `coap_packet_init`, `coap_append_block1_option` and `send_coap_reply`. -/
structure Outcomes where
  update : Int
  updated : BlockContext → BlockContext
  malloc : Bool
  init : Int
  append : Int
  send : Int

/-- The response handed to `send_coap_reply`. -/
structure Reply where
  code : Nat
  token : List Nat
  id : Nat
  block1 : BlockContext
  deriving DecidableEq

/-- What a handler returns, the context it leaves, and its response, if it comes to send one. -/
structure Result where
  r : Int
  ctx : BlockContext
  reply : Option Reply
  deriving DecidableEq

/-- `GET_BLOCK_NUM` -/
def getBlockNum (v : Int) : Int := v / 16

/-- From `k_malloc` to the end, which is the same in both handlers. -/
def respond (ctx : BlockContext) (o : Outcomes) (request : Request) (code : Nat) : Result :=
  if o.malloc then
    if o.init < 0 then ⟨o.init, ctx, none⟩
    else if o.append < 0 then ⟨o.append, ctx, none⟩
    else ⟨o.send, ctx, some ⟨code, request.token, request.id, ctx⟩⟩
  else ⟨-ENOMEM, ctx, none⟩

def largeUpdatePut (ctx : BlockContext) (o : Outcomes) (request : Request) : Result :=
  let r := request.getOptionInt
  if r < 0 then ⟨-EINVAL, ctx, none⟩
  else
    let lastBlock := !getMore r
    let ctx := if getBlockNum r = 0 then coapBlockTransferInit .block64 0 else ctx
    let ctx := o.updated ctx
    if o.update < 0 then ⟨-EINVAL, ctx, none⟩
    else if !lastBlock && request.payload.isNone then ⟨-EINVAL, ctx, none⟩
    else respond ctx o request (if !lastBlock then codeContinue else codeChanged)

def largeCreatePost (ctx : BlockContext) (o : Outcomes) (request : Request) : Result :=
  let r := request.getOptionInt
  if r < 0 then ⟨-EINVAL, ctx, none⟩
  else
    let lastBlock := !getMore r
    let ctx := if getBlockNum r = 0 then coapBlockTransferInit .block32 0 else ctx
    let ctx := o.updated ctx
    if o.update < 0 then ⟨-EINVAL, ctx, none⟩
    -- `payload` where the handler above has `payload == NULL`
    else if !lastBlock && request.payload.isSome then ⟨-EINVAL, ctx, none⟩
    else respond ctx o request (if !lastBlock then codeContinue else codeCreated)

/-! ## The handlers of the server -/

/-- The outcomes as the trial of the server's handlers. -/
def Outcomes.trial (o : Outcomes) : Trial where
  malloc := o.malloc
  outcome k _ :=
    match k with
    | 0 => o.update
    | 1 => o.init
    | 2 => o.append
    | _ => o.send

section

variable {P O : Type} (s : Server P O) (ctx : BlockContext) (o : Outcomes) (request : Request)

theorem respond_r (code : Nat) : (respond ctx o request code).r =
    (withBuffer s o.trial 1
      [.packetInit .ack request.token code request.id, .block1, .sendReply]).1 := by
  unfold respond withBuffer Outcomes.trial
  cases o.malloc with
  | false => rfl
  | true =>
    show (if o.init < 0 then _ else if o.append < 0 then _ else _ : Result).r =
      if o.init < 0 then o.init else if o.append < 0 then o.append
        else if o.send < 0 then o.send else o.send
    rw [ite_self]
    split
    · rfl
    · split <;> rfl

theorem largeUpdatePut_r :
    (largeUpdatePut ctx o request).r = (CoapServer.largeUpdatePut s o.trial request).1 := by
  unfold largeUpdatePut CoapServer.largeUpdatePut
  by_cases hblock : request.getOptionInt < 0
  · rw [if_pos hblock, if_pos hblock]
  · rw [if_neg hblock, if_neg hblock]
    have htrial : o.trial.outcome 0 .updateFromBlock = o.update := rfl
    dsimp only
    rw [htrial]
    by_cases hupdate : o.update < 0
    · rw [if_pos hupdate, if_pos hupdate]
    · rw [if_neg hupdate, if_neg hupdate]
      cases getMore request.getOptionInt with
      | false => exact respond_r s _ o request codeChanged
      | true =>
        cases request.payload with
        | none => rfl
        | some payload => exact respond_r s _ o request codeContinue

theorem largeCreatePost_r :
    (largeCreatePost ctx o request).r = (CoapServer.largeCreatePost s o.trial request).1 := by
  unfold largeCreatePost CoapServer.largeCreatePost
  by_cases hblock : request.getOptionInt < 0
  · rw [if_pos hblock, if_pos hblock]
  · rw [if_neg hblock, if_neg hblock]
    have htrial : o.trial.outcome 0 .updateFromBlock = o.update := rfl
    dsimp only
    rw [htrial]
    by_cases hupdate : o.update < 0
    · rw [if_pos hupdate, if_pos hupdate]
    · rw [if_neg hupdate, if_neg hupdate]
      cases getMore request.getOptionInt with
      | false => exact respond_r s _ o request codeCreated
      | true =>
        cases request.payload with
        | none => exact respond_r s _ o request codeContinue
        | some payload => rfl

end

/-! ## Agreement -/

/-- How a block is accepted. -/
inductive Answer
  | continue
  | final
  deriving DecidableEq

/-- The answer that was sent, where `final` is the handler's code for the last block. -/
def Result.answer (final : Nat) (result : Result) : Option Answer :=
  if result.r < 0 then none
  else
    match result.reply with
    | none => none
    | some reply =>
      if reply.code = codeContinue then some .continue
      else if reply.code = final then some .final
      else none

def putAnswer (ctx : BlockContext) (o : Outcomes) (request : Request) : Option Answer :=
  (largeUpdatePut ctx o request).answer codeChanged

def postAnswer (ctx : BlockContext) (o : Outcomes) (request : Request) : Option Answer :=
  (largeCreatePost ctx o request).answer codeCreated

/-- No call fails. -/
structure Outcomes.Ok (o : Outcomes) : Prop where
  update : 0 ≤ o.update
  malloc : o.malloc = true
  init : 0 ≤ o.init
  append : 0 ≤ o.append
  send : 0 ≤ o.send

section

variable {ctx : BlockContext} {o : Outcomes} {request : Request} {code final : Nat}

theorem answer_respond (h : o.Ok) :
    (respond ctx o request code).answer final =
      if code = codeContinue then some .continue
      else if code = final then some .final
      else none := by
  rw [respond, if_pos h.malloc, if_neg (Int.not_lt.mpr h.init), if_neg (Int.not_lt.mpr h.append)]
  exact if_neg (Int.not_lt.mpr h.send)

theorem answer_respond_of_fails (hupdate : 0 ≤ o.update) (h : ¬ o.Ok) :
    (respond ctx o request code).answer final = none := by
  unfold respond
  split
  case isFalse => rfl
  case isTrue hmalloc =>
    split
    case isTrue hinit => exact if_pos hinit
    case isFalse hinit =>
      split
      case isTrue happend => exact if_pos happend
      case isFalse happend =>
        refine if_pos (Int.not_le.mp fun hsend => h ?_)
        exact ⟨hupdate, hmalloc, Int.not_lt.mp hinit, Int.not_lt.mp happend, hsend⟩

/-! What the handlers answer. -/

theorem answers_of_fails (h : request.getOptionInt < 0 ∨ ¬ o.Ok) :
    putAnswer ctx o request = none ∧ postAnswer ctx o request = none := by
  unfold putAnswer postAnswer largeUpdatePut largeCreatePost
  by_cases hblock : request.getOptionInt < 0
  · rw [if_pos hblock, if_pos hblock]
    exact ⟨rfl, rfl⟩
  · have hok : ¬ o.Ok := h.resolve_left hblock
    rw [if_neg hblock, if_neg hblock]
    dsimp only
    by_cases hupdate : o.update < 0
    · rw [if_pos hupdate, if_pos hupdate]
      exact ⟨rfl, rfl⟩
    · rw [if_neg hupdate, if_neg hupdate]
      constructor
      · split
        · rfl
        · exact answer_respond_of_fails (Int.not_lt.mp hupdate) hok
      · split
        · rfl
        · exact answer_respond_of_fails (Int.not_lt.mp hupdate) hok

theorem answers_of_last (hok : o.Ok) (hblock : 0 ≤ request.getOptionInt)
    (hlast : getMore request.getOptionInt = false) :
    putAnswer ctx o request = some .final ∧ postAnswer ctx o request = some .final := by
  unfold putAnswer postAnswer largeUpdatePut largeCreatePost
  rw [if_neg (Int.not_lt.mpr hblock), if_neg (Int.not_lt.mpr hblock), hlast]
  dsimp only
  rw [if_neg (Int.not_lt.mpr hok.update), if_neg (Int.not_lt.mpr hok.update)]
  exact ⟨answer_respond hok, answer_respond hok⟩

/-- A block with more to come is accepted by the first if it has a payload, and by the second if it
has none. -/
theorem answers_of_more (hok : o.Ok) (hblock : 0 ≤ request.getOptionInt)
    (hmore : getMore request.getOptionInt = true) :
    putAnswer ctx o request = (if request.payload.isSome then some .continue else none) ∧
    postAnswer ctx o request = (if request.payload.isSome then none else some .continue) := by
  unfold putAnswer postAnswer largeUpdatePut largeCreatePost
  rw [if_neg (Int.not_lt.mpr hblock), if_neg (Int.not_lt.mpr hblock), hmore]
  dsimp only
  rw [if_neg (Int.not_lt.mpr hok.update), if_neg (Int.not_lt.mpr hok.update)]
  cases request.payload with
  | none => exact ⟨rfl, answer_respond hok⟩
  | some payload => exact ⟨answer_respond hok, rfl⟩

/-- On one block the handlers agree exactly if it is the last, or cannot be answered. -/
theorem agree_iff (ctx ctx' : BlockContext) :
    putAnswer ctx o request = postAnswer ctx' o request ↔
      request.getOptionInt < 0 ∨ getMore request.getOptionInt = false ∨ ¬ o.Ok := by
  by_cases hfails : request.getOptionInt < 0 ∨ ¬ o.Ok
  · rw [(answers_of_fails hfails).1, (answers_of_fails hfails).2]
    exact iff_of_true rfl (hfails.imp_right .inr)
  · obtain ⟨hblock, hok⟩ := not_or.mp hfails
    have hblock := Int.not_lt.mp hblock
    have hok := not_not.mp hok
    cases hmore : getMore request.getOptionInt with
    | false =>
      rw [(answers_of_last hok hblock hmore).1, (answers_of_last hok hblock hmore).2]
      exact iff_of_true rfl (.inr (.inl rfl))
    | true =>
      rw [(answers_of_more hok hblock hmore).1, (answers_of_more hok hblock hmore).2]
      refine iff_of_false ?_ ?_
      · cases request.payload.isSome <;> decide
      · rintro (h | h | h)
        · exact absurd hblock (Int.not_le.mpr h)
        · exact Bool.noConfusion h
        · exact h hok

end

/-! ## Uploads -/

/-- A block of an upload: it has a payload and calls that succeed. -/
structure Block (more : Bool) (b : Request × Outcomes) : Prop where
  payload : b.1.payload.isSome = true
  block1 : 0 ≤ b.1.getOptionInt
  more : getMore b.1.getOptionInt = more
  ok : b.2.Ok

/-- The blocks of an upload, of which the last has the more flag clear. -/
structure Upload where
  front : List (Request × Outcomes)
  last : Request × Outcomes
  front_more : ∀ b ∈ front, Block true b
  last_clear : Block false last

/-- The number of blocks. -/
def Upload.size (u : Upload) : Nat := u.front.length + 1

/-- What a handler answers to some blocks, from a context on. -/
def answers (handler : BlockContext → Outcomes → Request → Result) (final : Nat) :
    BlockContext → List (Request × Outcomes) → List (Option Answer)
  | _, [] => []
  | ctx, b :: bs =>
    let result := handler ctx b.2 b.1
    result.answer final :: answers handler final result.ctx bs

def putAnswers (ctx : BlockContext) (u : Upload) : List (Option Answer) :=
  answers largeUpdatePut codeChanged ctx (u.front ++ [u.last])

def postAnswers (ctx : BlockContext) (u : Upload) : List (Option Answer) :=
  answers largeCreatePost codeCreated ctx (u.front ++ [u.last])

/-- All blocks but the last are answered with Continue, and that with the final code. -/
def Accepted (u : Upload) (as : List (Option Answer)) : Prop :=
  as = List.replicate (u.size - 1) (some .continue) ++ [some .final]

/-- A handler whose answer to each block does not depend on its context. -/
theorem answers_eq {handler : BlockContext → Outcomes → Request → Result} {final : Nat}
    {front : List (Request × Outcomes)} {last : Request × Outcomes} {a a' : Option Answer}
    (hfront : ∀ b ∈ front, ∀ ctx, (handler ctx b.2 b.1).answer final = a)
    (hlast : ∀ ctx, (handler ctx last.2 last.1).answer final = a') (ctx : BlockContext) :
    answers handler final ctx (front ++ [last]) = List.replicate front.length a ++ [a'] := by
  induction front generalizing ctx with
  | nil => exact congrArg (· :: []) (hlast ctx)
  | cons b front ih =>
    rw [List.cons_append, answers, List.length_cons, List.replicate_succ, List.cons_append]
    rw [hfront b List.mem_cons_self ctx, ih fun b hb => hfront b (List.mem_cons_of_mem _ hb)]

theorem putAnswers_eq (ctx : BlockContext) (u : Upload) :
    putAnswers ctx u = List.replicate u.front.length (some .continue) ++ [some .final] := by
  refine answers_eq (fun b hb ctx => ?_) (fun ctx => ?_) ctx
  · have h := u.front_more b hb
    exact (answers_of_more h.ok h.block1 h.more).1.trans (if_pos h.payload)
  · have h := u.last_clear
    exact (answers_of_last h.ok h.block1 h.more).1

theorem postAnswers_eq (ctx : BlockContext) (u : Upload) :
    postAnswers ctx u = List.replicate u.front.length none ++ [some .final] := by
  refine answers_eq (fun b hb ctx => ?_) (fun ctx => ?_) ctx
  · have h := u.front_more b hb
    exact (answers_of_more h.ok h.block1 h.more).2.trans (if_pos h.payload)
  · have h := u.last_clear
    exact (answers_of_last h.ok h.block1 h.more).2

/-- The handlers agree on exactly the last blocks and those they cannot answer, so of the uploads
both accept exactly those of one block. -/
theorem handlers_agree_iff (request : Request) (o : Outcomes) (u : Upload)
    (ctx ctx' : BlockContext) :
    (putAnswer ctx o request = postAnswer ctx' o request ↔
      request.getOptionInt < 0 ∨ getMore request.getOptionInt = false ∨ ¬ o.Ok) ∧
    (Accepted u (putAnswers ctx u) ∧ Accepted u (postAnswers ctx' u) ↔ u.size = 1) := by
  refine ⟨agree_iff ctx ctx', ?_⟩
  rw [putAnswers_eq, postAnswers_eq]
  unfold Accepted Upload.size
  rw [Nat.add_sub_cancel]
  cases u.front with
  | nil => exact iff_of_true ⟨rfl, rfl⟩ rfl
  | cons b front =>
    refine iff_of_false (fun h => ?_) (Nat.succ_ne_zero _ ∘ Nat.succ.inj)
    exact absurd (List.cons.inj h.2).1 (by decide)

/-- The first block of an upload: number 0, the more flag, 32 bytes. -/
theorem handlers_disagree :
    let request : Request :=
      { type := .con, code := 3, id := 1, block1 := some 9, payload := some [65] }
    let o : Outcomes :=
      { update := 0, updated := id, malloc := true, init := 0, append := 0, send := 0 }
    let ctx : BlockContext := coapBlockTransferInit .block32 0
    putAnswer ctx o request = some .continue ∧ postAnswer ctx o request = none := by
  decide

end BlockUpload
end CoapServer
end ZephyrSamples
