import Interchain.Proofs.Session.Arguments

/-! # Sessions refine the library without objects

A session is valid if its registry is and knows all chains that were given out. One request keeps it
valid and replies what the stateless session replies after the same numbers were given out
(`step_agrees`); so a whole run does (`run_agrees`). All chains that ever came out are known to the
registry at the end, hence two of them are the same object exactly if they have the same number.
-/

namespace Interchain

open HasChains

/-- The numbers that a request gave out. -/
def Reply.numbers (reply : Reply) : Given Number := Stateless.given reply.outcome

namespace Session

structure Valid (s : Session) : Prop where
  registry : s.registry.Valid
  results : s.registry.Knows s.results

/-- The numbers that were given out. -/
def numbers (s : Session) : List (Given Number) := s.results.map (Given.map Chain.value)

/-- The session after these requests. -/
def after (colour : Colour) (s : Session) (requests : List Request) : Session :=
  requests.foldl (fun s request => (step colour s request).2) s

/-- A session of its own in which just these numbers were given out. -/
def fresh (numbers : List (Given Number)) : Session :=
  let registry := Registry.initial.issueAll (numbers.flatMap Given.all)
  ⟨registry, numbers.map (Given.map registry.chain)⟩

theorem valid_initial : Valid initial where
  registry := Registry.valid_initial
  results := by
    intro c hc
    cases hc

/-! ### One request -/

section

variable (colour : Colour) {s : Session}

theorem given_forgotten (outcome : Except Raised Answer) :
    Stateless.given (forgotten outcome) = Stateless.given outcome := by
  rcases outcome with e | answer
  · rfl
  · cases answer with
    | attempt result => cases result <;> rfl
    | value v =>
      show Given.mk none (v.forget.chains.map Chain.value) = Given.mk none (v.chains.map Chain.value)
      rw [Value.chains_forget, List.map_map]
      rfl
    | _ => rfl

theorem given_subset (outcome : Except Raised Answer) :
    (given outcome).all ⊆ chainsIn outcome := by
  rcases outcome with e | answer
  · exact List.nil_subset _
  · cases answer with
    | attempt result =>
      cases result with
      | ok c => exact List.Subset.refl _
      | error f => exact List.nil_subset _
    | chain c => exact List.Subset.refl _
    | value v => exact List.Subset.refl _
    | _ => exact List.nil_subset _

theorem findIdx_congr {α : Type} {p q : α → Bool} {xs : List α}
    (h : ∀ x ∈ xs, p x = true ↔ q x = true) : xs.findIdx p = xs.findIdx q := by
  refine Nat.le_antisymm (List.findIdx_le_findIdx ?_) (List.findIdx_le_findIdx ?_)
  · exact fun x hx => (h x hx).2
  · exact fun x hx => (h x hx).1

section

variable {r : Registry} {results : Results} {c : Chain}

/-- The first return of an object is the first return of its number. -/
theorem firstReturn_eq (hr : r.Valid) (hres : r.Knows results) (hc : r.Issues c) :
    firstReturn results c =
      Stateless.firstReturn (results.map (Given.map Chain.value)) c.value := by
  rw [firstReturn, Stateless.firstReturn, List.findIdx_map]
  refine findIdx_congr fun given hgiven => ?_
  show given.chain?.any (Chain.same c) = true ↔ (given.chain?.map Chain.value == some c.value) = true
  cases hchain : given.chain? with
  | none => simp
  | some d =>
    have hd : r.Issues d := issues_of_mem_all hres hgiven (Given.mem_all_of_chain? hchain)
    rw [Option.any_some, hr.same_iff hc hd, Option.map_some, beq_iff_eq, Option.some_inj, eq_comm]

/-- An object comes from where its number comes from. -/
theorem origin_eq (hr : r.Valid) (hres : r.Knows results) (hc : r.Issues c) :
    origin results c = Stateless.origin (results.map (Given.map Chain.value)) c.value := by
  rw [origin, Stateless.origin, List.findIdx_map]
  refine findIdx_congr fun given hgiven => ?_
  have hissues : ∀ d ∈ given.all, r.Issues d := fun d hd => issues_of_mem_all hres hgiven hd
  rw [Function.comp_apply, Given.all_map, List.any_eq_true, List.contains_iff_mem, List.mem_map]
  constructor
  · rintro ⟨d, hd, hsame⟩
    exact ⟨d, hd, ((hr.same_iff hc (hissues d hd)).1 hsame).symm⟩
  · rintro ⟨d, hd, hvalue⟩
    exact ⟨d, hd, (hr.same_iff hc (hissues d hd)).2 hvalue.symm⟩

theorem origins_eq {outcome : Except Raised Answer} (hr : r.Valid) (hres : r.Knows results)
    (hk : r.Knows outcome) :
    (given outcome).chain?.map (firstReturn results) =
        (Stateless.given outcome).chain?.map
          (Stateless.firstReturn (results.map (Given.map Chain.value))) ∧
      (given outcome).all.map (origin results) =
        (Stateless.given outcome).all.map
          (Stateless.origin (results.map (Given.map Chain.value))) := by
  have hissues : ∀ c ∈ (given outcome).all, r.Issues c := fun c hc => hk c (given_subset outcome hc)
  rw [Stateless.given, Given.all_map, List.map_map]
  refine ⟨?_, List.map_congr_left fun c hc => origin_eq hr hres (hissues c hc)⟩
  rw [Given.map, Option.map_map]
  refine Option.map_congr fun c hc => ?_
  exact firstReturn_eq hr hres (hissues c (Given.mem_all_of_chain? hc))

theorem knows_concat {outcome : Except Raised Answer} (hres : r.Knows results)
    (hk : r.Knows outcome) : r.Knows (results ++ [given outcome]) := by
  intro c hc
  obtain ⟨out, hmem, hc⟩ := List.mem_flatMap.1 hc
  rcases List.mem_append.1 hmem with hmem | hmem
  · exact hres c (List.mem_flatMap.2 ⟨out, hmem, hc⟩)
  · rw [List.mem_singleton.1 hmem, Given.chainsIn_eq] at hc
    exact hk c (given_subset outcome hc)

end

/-- Where the chains of a reply come from is told by the numbers alone. -/
theorem first_step (hs : s.Valid) (request : Request) :
    (step colour s request).1.first =
        (step colour s request).1.numbers.chain?.map (Stateless.firstReturn s.numbers) ∧
      (step colour s request).1.origins =
        (step colour s request).1.numbers.all.map (Stateless.origin s.numbers) := by
  obtain ⟨hr, hres⟩ := hs
  obtain ⟨hg, -, hk⟩ := perform_request_agrees colour request hr hres
  exact origins_eq (hr.grows hg) (hg.knows hr hres) hk

/-- **One request.** -/
theorem step_agrees (hs : s.Valid) (request : Request) :
    (step colour s request).2.Valid ∧
    Registry.Grows s.registry (step colour s request).2.registry ∧
    (step colour s request).2.registry.Knows (step colour s request).1 ∧
    Stateless.step colour s.numbers request =
      (forgotten (step colour s request).1, (step colour s request).2.numbers) := by
  obtain ⟨hfirst, horigins⟩ := first_step colour hs request
  obtain ⟨hr, hres⟩ := hs
  obtain ⟨hg, hf, hk⟩ := perform_request_agrees colour request hr hres
  refine ⟨⟨hr.grows hg, knows_concat (hg.knows hr hres) hk⟩, hg, hk, ?_⟩
  rw [Stateless.step, numbers, hf]
  simp only [given_forgotten]
  refine Prod.ext ?_ ?_
  · exact congrArg₂ (Reply.mk _) hfirst.symm horigins.symm
  · show _ = (s.results ++ [_]).map (Given.map Chain.value)
    rw [List.map_append]
    rfl

end

/-! ### Any number of requests -/

section

variable (colour : Colour) {s : Session}

theorem run_cons (request : Request) (rest : List Request) :
    run colour s (request :: rest) =
      (step colour s request).1 :: run colour (step colour s request).2 rest := rfl

theorem after_cons (request : Request) (rest : List Request) :
    after colour s (request :: rest) = after colour (step colour s request).2 rest := rfl

/-- **What one request keeps, a run keeps**, and in the end the registry knows all chains that
came out. -/
theorem run_agrees (requests : List Request) (hs : s.Valid) :
    (after colour s requests).Valid ∧
    Registry.Grows s.registry (after colour s requests).registry ∧
    (∀ reply ∈ run colour s requests, (after colour s requests).registry.Knows reply) ∧
    (run colour s requests).map forgotten = Stateless.run colour s.numbers requests := by
  induction requests generalizing s with
  | nil =>
    refine ⟨hs, .refl _, ?_, rfl⟩
    intro reply h
    cases h
  | cons request rest ih =>
    obtain ⟨hs', hg, hk, hstep⟩ := step_agrees colour hs request
    obtain ⟨hlast, hg', hall, hrun⟩ := ih hs'
    rw [after_cons, run_cons]
    refine ⟨hlast, hg.trans hg', ?_, ?_⟩
    · intro reply hmem
      rcases List.mem_cons.1 hmem with rfl | hmem
      · exact hg'.knows hs'.registry hk
      · exact hall reply hmem
    · rw [Stateless.run, hstep, List.map_cons, hrun]

theorem length_run (requests : List Request) :
    (run colour s requests).length = requests.length := by
  induction requests generalizing s with
  | nil => rfl
  | cons request rest ih => rw [run_cons, List.length_cons, ih, List.length_cons]

theorem numbers_after (requests : List Request) :
    (after colour s requests).numbers =
      s.numbers ++ (run colour s requests).map Reply.numbers := by
  induction requests generalizing s with
  | nil => exact (List.append_nil _).symm
  | cons request rest ih =>
    have hstep : (step colour s request).2.numbers =
        s.numbers ++ [(step colour s request).1.numbers] := by
      show (s.results ++ [_]).map (Given.map Chain.value) = _
      rw [List.map_append]
      rfl
    rw [after_cons, ih, hstep, run_cons, List.map_cons, List.append_assoc]
    rfl

/-- The reply to each request is that of the session after the ones before. -/
theorem getElem?_run (requests : List Request) (i : Nat) :
    (run colour s requests)[i]? =
      (requests[i]?).map fun request =>
        (step colour (after colour s (requests.take i)) request).1 := by
  induction requests generalizing s i with
  | nil => rfl
  | cons request rest ih =>
    cases i with
    | zero => rfl
    | succ i => rw [run_cons, List.getElem?_cons_succ, ih]; rfl

theorem take_run (requests : List Request) (i : Nat) :
    (run colour s requests).take i = run colour s (requests.take i) := by
  induction requests generalizing s i with
  | nil => rw [List.take_nil]; exact List.take_nil
  | cons request rest ih =>
    cases i with
    | zero => rfl
    | succ i => rw [run_cons, List.take_succ_cons, ih, List.take_succ_cons, run_cons]

end

/-! ### A request on its own -/

/-- Sessions that returned the same numbers answer alike. -/
theorem outcome_eq {colour : Colour} {s s' : Session} (hs : s.Valid) (hs' : s'.Valid)
    (h : s.numbers = s'.numbers) (request : Request) :
    forgotten (request.perform colour s.results s.registry).1 =
      forgotten (request.perform colour s'.results s'.registry).1 := by
  have hf := (perform_request_agrees colour request hs.registry hs.results).forgets
  have hf' := (perform_request_agrees colour request hs'.registry hs'.results).forgets
  rw [← hf, ← hf']
  exact congrArg (fun numbers => Stateless.answer colour numbers request) h

theorem Valid.number_of_mem {s : Session} (hs : s.Valid) {out : Given Number}
    (h : out ∈ s.numbers) {x : Number} (hx : x ∈ out.all) :
    ∃ n : Nat, n ≤ Number.maxU16 ∧ x = .ofNat n := by
  obtain ⟨given, hgiven, rfl⟩ := List.mem_map.1 h
  rw [Given.all_map] at hx
  obtain ⟨c, hc, rfl⟩ := List.mem_map.1 hx
  exact hs.registry.value_of_issues (issues_of_mem_all hs.results hgiven hc)

/-- In a session of its own just these numbers were given out. -/
theorem fresh_valid {numbers : List (Given Number)}
    (h : ∀ out ∈ numbers, ∀ x ∈ out.all, ∃ n : Nat, n ≤ Number.maxU16 ∧ x = .ofNat n) :
    (fresh numbers).Valid ∧ (fresh numbers).numbers = numbers := by
  have hu16 : ∀ x ∈ numbers.flatMap Given.all, x.isU16 = true := by
    intro x hx
    obtain ⟨out, hout, hx⟩ := List.mem_flatMap.1 hx
    obtain ⟨n, hn, rfl⟩ := h out hout x hx
    exact Number.isU16_ofNat.2 hn
  have hr := Registry.valid_initial.grows (.issueAll Registry.initial hu16)
  have hchain : ∀ out ∈ numbers, ∀ x ∈ out.all,
      (fresh numbers).registry.Issues ((fresh numbers).registry.chain x) ∧
        ((fresh numbers).registry.chain x).value = x := by
    intro out hout x hx
    have hmem : x ∈ numbers.flatMap Given.all := List.mem_flatMap.2 ⟨out, hout, hx⟩
    have hissues := Registry.issues_chainOf hr (hu16 x hmem)
    rw [Document.chainOf_issueAll Registry.valid_initial hu16 (.refl _) x hmem] at hissues
    refine ⟨hissues, ?_⟩
    obtain ⟨n, -, rfl⟩ := h out hout x hx
    exact (Registry.value_chainOf hr (hu16 _ hmem)).trans (Number.unsignZero_ofNat n)
  refine ⟨⟨hr, ?_⟩, ?_⟩
  · intro c hc
    obtain ⟨given, hgiven, hc⟩ := List.mem_flatMap.1 hc
    obtain ⟨out, hout, rfl⟩ := List.mem_map.1 hgiven
    rw [Given.chainsIn_eq, Given.all_map] at hc
    obtain ⟨x, hx, rfl⟩ := List.mem_map.1 hc
    exact (hchain out hout x hx).1
  · rw [Session.numbers, fresh, List.map_map]
    refine (List.map_congr_left fun out hout => ?_).trans (List.map_id numbers)
    rw [Function.comp_apply, Given.map_map]
    refine Eq.trans (Given.map_congr fun x hx => ?_) out.map_id
    exact (hchain out hout x hx).2

/-! ### The first of its kind -/

/-- Counting the latest one last, the first that has what the latest one has is found, and none before
it has it. -/
theorem findIdx_take {outs : List (Given Number)} {p : Given Number → Bool} {i : Nat}
    {out : Given Number} (hi : outs[i]? = some out) (hp : p out = true) :
    (outs.take i).findIdx p ≤ i ∧
    (∃ out, outs[(outs.take i).findIdx p]? = some out ∧ p out = true) ∧
    ∀ k < (outs.take i).findIdx p, ∀ out, outs[k]? = some out → ¬p out = true := by
  have hlength : (outs.take i).length = i :=
    List.length_take_of_le (Nat.le_of_lt (List.getElem?_eq_some_iff.1 hi).1)
  have hle : (outs.take i).findIdx p ≤ i := by
    have hbound : (outs.take i).findIdx p ≤ (outs.take i).length := List.findIdx_le_length
    rwa [hlength] at hbound
  refine ⟨hle, ?_, ?_⟩
  · rcases Nat.lt_or_eq_of_le hle with hj | hj
    · have hlt : (outs.take i).findIdx p < (outs.take i).length := by rwa [hlength]
      refine ⟨(outs.take i)[(outs.take i).findIdx p], ?_, List.findIdx_getElem (w := hlt)⟩
      rw [← List.getElem?_take_of_lt hj, List.getElem?_eq_getElem hlt]
    · rw [hj]
      exact ⟨out, hi, hp⟩
  · intro k hk out hout
    have hlt : k < (outs.take i).length := by
      rw [hlength]
      exact Nat.lt_of_lt_of_le hk hle
    have hnot := List.not_of_lt_findIdx hk
    rw [← List.getElem?_take_of_lt (Nat.lt_of_lt_of_le hk hle), List.getElem?_eq_getElem hlt,
      Option.some_inj] at hout
    rw [hout] at hnot
    rw [hnot]
    exact Bool.false_ne_true

/-! ### Replies by their place -/

section

variable (colour : Colour) (requests : List Request)

theorem valid_after (i : Nat) : (after colour initial (requests.take i)).Valid :=
  (run_agrees colour (requests.take i) valid_initial).1

/-- Before a request, the numbers that its predecessors gave out are known. -/
theorem numbers_after_take (i : Nat) :
    (after colour initial (requests.take i)).numbers =
      ((run colour initial requests).map Reply.numbers).take i := by
  rw [numbers_after, ← take_run, List.map_take]
  rfl

variable {colour requests} {i : Nat} {reply : Reply}

theorem reply_alone {request : Request} (hrequest : requests[i]? = some request)
    (hreply : (run colour initial requests)[i]? = some reply) :
    let alone := fresh (((run colour initial requests).map Reply.numbers).take i)
    alone.numbers = ((run colour initial requests).map Reply.numbers).take i ∧
      forgotten (request.perform colour alone.results alone.registry).1 =
        forgotten reply.outcome := by
  intro alone
  have hvalid := valid_after colour requests i
  have hnumbers := numbers_after_take colour requests i
  have hold : ∀ out ∈ ((run colour initial requests).map Reply.numbers).take i, ∀ x ∈ out.all,
      ∃ n : Nat, n ≤ Number.maxU16 ∧ x = .ofNat n := by
    rw [← hnumbers]
    exact fun out hout x hx => hvalid.number_of_mem hout hx
  obtain ⟨halone, hsame⟩ := fresh_valid hold
  rw [getElem?_run, hrequest, Option.map_some, Option.some_inj] at hreply
  rw [← hreply]
  exact ⟨hsame, outcome_eq halone hvalid (hsame.trans hnumbers.symm) request⟩

theorem reply_first (hreply : (run colour initial requests)[i]? = some reply) :
    let before := ((run colour initial requests).map Reply.numbers).take i
    reply.first = reply.numbers.chain?.map (Stateless.firstReturn before) ∧
      reply.origins = reply.numbers.all.map (Stateless.origin before) := by
  rw [getElem?_run] at hreply
  obtain ⟨request, -, hstep⟩ := Option.map_eq_some_iff.1 hreply
  have hfirst := first_step colour (valid_after colour requests i) request
  rwa [hstep, numbers_after_take] at hfirst

theorem numbers_at (hreply : (run colour initial requests)[i]? = some reply) :
    ((run colour initial requests).map Reply.numbers)[i]? = some reply.numbers := by
  rw [List.getElem?_map, hreply, Option.map_some]

/-- Of the requests that answered with a number, the one that is told is the first. -/
theorem reply_least {c : Chain} (hreply : (run colour initial requests)[i]? = some reply)
    (hc : (given reply.outcome).chain? = some c) :
    ∃ j ≤ i, reply.first = some j ∧
      (∃ out, ((run colour initial requests).map Reply.numbers)[j]? = some out ∧
        out.chain? = some c.value) ∧
      ∀ k < j, ∀ out, ((run colour initial requests).map Reply.numbers)[k]? = some out →
        out.chain? ≠ some c.value := by
  have hvalue : reply.numbers.chain? = some c.value := by
    rw [Reply.numbers, Stateless.given, Given.map, hc, Option.map_some]
  have hfirst := (reply_first hreply).1
  rw [hvalue, Option.map_some] at hfirst
  obtain ⟨hle, hat, hbefore⟩ := findIdx_take (p := fun out => out.chain? == some c.value)
    (numbers_at hreply) (beq_iff_eq.2 hvalue)
  simp only [beq_iff_eq] at hat hbefore
  exact ⟨_, hle, hfirst, hat, hbefore⟩

/-- Of the requests that gave out a number, the one that is told is the first. -/
theorem reply_origin {n : Nat} {c : Chain} (hreply : (run colour initial requests)[i]? = some reply)
    (hc : (given reply.outcome).all[n]? = some c) :
    ∃ j ≤ i, reply.origins[n]? = some j ∧
      (∃ out, ((run colour initial requests).map Reply.numbers)[j]? = some out ∧
        c.value ∈ out.all) ∧
      ∀ k < j, ∀ out, ((run colour initial requests).map Reply.numbers)[k]? = some out →
        c.value ∉ out.all := by
  have hvalue : reply.numbers.all[n]? = some c.value := by
    rw [Reply.numbers, Stateless.given, Given.all_map, List.getElem?_map, hc, Option.map_some]
  have horigin : reply.origins[n]? = _ := congrArg (·[n]?) (reply_first hreply).2
  rw [List.getElem?_map, hvalue, Option.map_some] at horigin
  have hmem : reply.numbers.all.contains c.value = true :=
    List.contains_iff_mem.2 (List.mem_of_getElem? hvalue)
  obtain ⟨hle, hat, hbefore⟩ := findIdx_take (p := fun out => out.all.contains c.value)
    (numbers_at hreply) hmem
  simp only [List.contains_iff_mem] at hat hbefore
  exact ⟨_, hle, horigin, hat, hbefore⟩

end

/-- **Sessions refine the library without objects.** Each reply is the one that the stateless
session gives once its objects are forgotten. It is the reply that the request gets in a session of
its own in which just the numbers from before were given out. Two chains that came out are the same
object exactly if they have the same number. The first request that answered with the object of a
reply is the first that answered with its number, and the first that gave out an object, as its answer
or inside it, is the first that gave out its number. -/
theorem run_refines (colour : Colour) (requests : List Request) :
    let replies := run colour initial requests
    let returned := replies.map Reply.numbers
    replies.length = requests.length ∧
    replies.map forgotten = Stateless.run colour [] requests ∧
    (∀ (i : Nat) (request : Request) (reply : Reply), requests[i]? = some request →
      replies[i]? = some reply →
      let alone := fresh (returned.take i)
      alone.numbers = returned.take i ∧
        forgotten (request.perform colour alone.results alone.registry).1 =
          forgotten reply.outcome) ∧
    (∀ reply ∈ replies, ∀ reply' ∈ replies, ∀ c ∈ chainsIn reply, ∀ d ∈ chainsIn reply',
      c.same d = true ↔ c.value = d.value) ∧
    (∀ (i : Nat) (reply : Reply) (c : Chain), replies[i]? = some reply →
      (given reply.outcome).chain? = some c →
      ∃ j ≤ i, reply.first = some j ∧
        (∃ out, returned[j]? = some out ∧ out.chain? = some c.value) ∧
        ∀ k < j, ∀ out, returned[k]? = some out → out.chain? ≠ some c.value) ∧
    ∀ (i n : Nat) (reply : Reply) (c : Chain), replies[i]? = some reply →
      (given reply.outcome).all[n]? = some c →
      ∃ j ≤ i, reply.origins[n]? = some j ∧
        (∃ out, returned[j]? = some out ∧ c.value ∈ out.all) ∧
        ∀ k < j, ∀ out, returned[k]? = some out → c.value ∉ out.all := by
  intro replies returned
  obtain ⟨hlast, -, hknown, hrun⟩ := run_agrees colour requests valid_initial
  refine ⟨length_run colour requests, hrun, ?_, ?_, ?_, ?_⟩
  · intro i request reply hrequest hreply
    exact reply_alone hrequest hreply
  · intro reply hreply reply' hreply' c hc d hd
    exact hlast.registry.same_iff (hknown reply hreply c hc) (hknown reply' hreply' d hd)
  · intro i reply c hreply hc
    exact reply_least hreply hc
  · intro i n reply c hreply hc
    exact reply_origin hreply hc

example :
    (run .plain initial
      [.ofValue (.number (.ofNat 7)), .default, .parse (.string (Text.ofString "Unknown(+07)")),
        .ofName (Text.ofString "any")]).map Reply.first =
      [some 0, some 1, some 0, some 1] := by
  decide

/-- What was captured is handed on, and is found to be the same object. -/
example :
    (run .plain initial
      [.tryParse (.string (Text.ofString "Unknown(+07)")), .ofValue (.number (.ofNat 7)),
        .coalesce (.inside 0 0)]).map Reply.origins = [[0], [0], [0]] := by
  decide +kernel

end Session

end Interchain
