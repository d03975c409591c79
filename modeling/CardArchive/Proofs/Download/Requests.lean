import CardArchive.Download.Attempts
import CardArchive.Proofs.Download.Outcomes

/-!
# Where requests go

Whatever the other side answers, only addresses at the trusted host are requested. The first
address of a file is made of its name, which stands in the path, so it can not change the
host; every further one is the target of a redirect and was checked before. An address is
followed by a limited number of requests, and a redirect that leads elsewhere ends the
transfer without a request to where it leads.

## What this module delivers

* `isAllowed_iff`, `isAllowed_root`: the allowed addresses, and all addresses at the host.
* `Trail` and `trail_followFrom`: the requests for one address, and how they end.
* `moves_build`, `moves_isStale`, `moves_attemptsFrom` and others: what each step of a transfer
  does to the exchange, from what following an address does.
* `Asks`: exchanges that have requested allowed addresses only.
* `Errand`: what may be asked for, and `requests_allowed`: where its requests go.
-/

set_option autoImplicit false

namespace CardArchive

/-! ## Allowed addresses -/

namespace Address

/-- The secure scheme. -/
def secureScheme : List Char := "https".toList

/-- The host that files are fetched from. -/
def trustedHost : List Char := "mtgjson.com".toList

/-- What every address at the trusted host starts with. -/
def root : List Char := "https://mtgjson.com/".toList

/-- An address is allowed if its scheme is the secure one and its host part is the trusted
host, to the letter. -/
theorem isAllowed_iff {address : String} : isAllowed address = true ↔
    ∃ p, parse [] address.toList = .ok p ∧ p.scheme = secureScheme ∧ p.host = trustedHost := by
  unfold isAllowed
  cases parse [] address.toList with
  | error e => simp
  | ok p =>
    have hhost : String.ofList p.host = "mtgjson.com" ↔ p.host = trustedHost := by
      rw [← String.toList_inj, String.toList_ofList]
      rfl
    simp [allowedHosts, secureScheme, hhost]

theorem cleaned_root (cs : List Char) :
    cleaned (root ++ cs) = root ++ cs.filter fun c => c != '\t' && c != '\r' && c != '\n' := by
  have hfront : (root ++ cs).dropWhile (fun c => decide (c.toNat ≤ 32)) = root ++ cs := rfl
  rw [cleaned, hfront, List.filter_append]
  rfl

/-- Scheme and host are read off what stands before the path, whatever the path is. -/
theorem parse_root (cs : List Char) :
    ∃ p, parse [] (root ++ cs) = .ok p ∧ p.scheme = secureScheme ∧ p.host = trustedHost := by
  unfold parse
  rw [cleaned_root]
  generalize cs.filter (fun c => c != '\t' && c != '\r' && c != '\n') = ds
  have hscheme : splitScheme (root ++ ds) = some (secureScheme, "//mtgjson.com/".toList ++ ds) :=
    rfl
  have hhost : splitHost ("//mtgjson.com/".toList ++ ds) = (trustedHost, '/' :: ds) := rfl
  have hbrackets : checkBrackets trustedHost = .ok () := rfl
  have hplain : checkDisguised trustedHost = .ok () := rfl
  simp only [hscheme, Option.getD_some, hhost, hbrackets, hplain]
  exact ⟨_, rfl, rfl, rfl⟩

theorem isAllowed_root {address : String} (cs : List Char) (h : address.toList = root ++ cs) :
    isAllowed address = true := by
  rw [isAllowed_iff, h]
  exact parse_root cs

end Address

theorem isAllowed_metaAddress : Address.isAllowed metaAddress = true :=
  Address.isAllowed_root "api/v5/Meta.json".toList rfl

/-- The address of a file is at the trusted host, whatever the file is called. -/
theorem isAllowed_fileAddress {name address : String} (h : fileAddress name = .ok address) :
    Address.isAllowed address = true := by
  unfold fileAddress at h
  split at h
  · cases h
    refine Address.isAllowed_root ("api/v5/".toList ++ (storedName name).toList) ?_
    simp only [String.toList_append, addressBase]
    rfl
  · cases h

namespace Transfer

variable {α β : Type}

/-! ## The requests for one address -/

/-- The requests made for an address when a number of them is left and the other side gives
some answers, and how they end: in a response, in a fault on the way, at a redirect that can
not be followed, or with none left. -/
inductive Trail : String → Nat → List Reply → List String → Except Failure Delivery → Prop
  | spent (address : String) (replies : List Reply) :
    Trail address 0 replies [] (.error (.transfer (.tooManyRedirects requestLimit)))
  | fault {address : String} {limit : Nat} {replies : List Reply} (f : TransferFault)
      (hreply : (replies.headD (.fault unanswered)).delivery = .error f) :
    Trail address (limit + 1) replies [address] (.error (.transfer f))
  | response {address : String} {limit : Nat} {replies : List Reply} (d : Delivery)
      (hreply : (replies.headD (.fault unanswered)).delivery = .ok d)
      (hr : d.response.isRedirect = false) :
    Trail address (limit + 1) replies [address] (.ok d)
  | lost {address : String} {limit : Nat} {replies : List Reply} (d : Delivery)
      (hreply : (replies.headD (.fault unanswered)).delivery = .ok d)
      (hr : d.response.isRedirect = true)
      (f : TransferFault) (htarget : target address d.response = .error f) :
    Trail address (limit + 1) replies [address] (.error (.transfer f))
  | hop {address : String} {limit : Nat} {replies : List Reply} (d : Delivery)
      (hreply : (replies.headD (.fault unanswered)).delivery = .ok d)
      (hr : d.response.isRedirect = true)
      {next : String} (htarget : target address d.response = .ok next) {sent : List String}
      {outcome : Except Failure Delivery} (hnext : Trail next limit replies.tail sent outcome) :
    Trail address (limit + 1) replies (address :: sent) outcome

/-- Following an address leaves a trail in the log and changes nothing else. -/
theorem trail_followFrom (address : String) (limit : Nat) (e : Exchange) :
    ∃ sent, Trail address limit e.replies sent ((followFrom address limit).outcome e) ∧
      (followFrom address limit).after e =
        { e with replies := e.replies.drop sent.length, requests := e.requests ++ sent } := by
  induction limit generalizing address e with
  | zero =>
    refine ⟨[], .spent address e.replies, ?_⟩
    simp only [List.append_nil, List.length_nil, List.drop_zero]
    rfl
  | succ limit ih =>
    have houtcome := outcome_request address e
    have hafter := after_request address e
    have hone : ∀ replies : List Reply, replies.drop 1 = replies.tail := fun _ => List.drop_one
    rw [followFrom, outcome_bind, after_bind]
    cases hreply : (e.replies.headD (.fault unanswered)).delivery with
    | error f =>
      rw [hreply] at houtcome
      rw [houtcome]
      refine ⟨[address], .fault f hreply, ?_⟩
      rw [List.length_singleton, hone]
      exact hafter
    | ok d =>
      rw [hreply] at houtcome
      rw [houtcome]
      simp only [Except.mapError, ok_bind, hafter]
      cases hr : d.response.isRedirect with
      | false =>
        refine ⟨[address], .response d hreply hr, ?_⟩
        rw [List.length_singleton, hone]
        rfl
      | true =>
        simp only [if_true]
        rw [outcome_bind, after_bind, outcome_ofExcept, after_ofExcept]
        cases htarget : target address d.response with
        | error f =>
          refine ⟨[address], .lost d hreply hr f htarget, ?_⟩
          rw [List.length_singleton, hone]
        | ok next =>
          obtain ⟨sent, htrail, hlog⟩ := ih next
            { e with replies := e.replies.tail, requests := e.requests ++ [address] }
          refine ⟨address :: sent, .hop d hreply hr htarget htrail, ?_⟩
          simp only [List.length_cons, List.append_assoc, List.singleton_append,
            List.drop_tail] at hlog ⊢
          exact hlog

namespace Trail

variable {address : String} {limit : Nat} {replies : List Reply} {sent : List String}
  {outcome : Except Failure Delivery}

theorem length_le (h : Trail address limit replies sent outcome) : sent.length ≤ limit := by
  induction h with
  | spent => exact Nat.le_refl 0
  | fault | response | lost => exact Nat.succ_le_succ (Nat.zero_le _)
  | hop _ _ _ _ _ ih => exact Nat.succ_le_succ ih

/-- The target of a redirect is allowed, as it was checked. -/
theorem isAllowed_target {r : Response} {next : String} (h : target address r = .ok next) :
    Address.isAllowed next = true := by
  unfold target at h
  obtain ⟨-, h⟩ := refuse_eq_ok.1 h
  obtain ⟨resolved, -, h⟩ := bind_eq_ok.1 h
  dsimp only at h
  split at h
  · rename_i hallowed
    rw [pure_eq_ok] at h
    rw [← h]
    exact hallowed
  · cases h

/-- From an allowed address only allowed ones are requested. -/
theorem allowed (h : Trail address limit replies sent outcome)
    (haddress : Address.isAllowed address = true) : ∀ a ∈ sent, Address.isAllowed a = true := by
  induction h with
  | spent => simp
  | fault | response | lost => simpa using haddress
  | hop r hreply hr htarget hnext ih =>
    exact List.forall_mem_cons.2 ⟨haddress, ih (isAllowed_target htarget)⟩

end Trail

/-- A redirect whose location, read against the address that was requested, leads to an
address that is not allowed. -/
structure Strays (address : String) (r : Response) (elsewhere : String) : Prop where
  isRedirect : r.isRedirect = true
  location : ∃ location, r.header? "location" = some location ∧ location ≠ "" ∧
    Address.resolve address.toList location.toList = .ok elsewhere.toList
  forbidden : Address.isAllowed elsewhere = false

theorem Strays.target {address elsewhere : String} {r : Response} (h : Strays address r elsewhere) :
    Transfer.target address r = .error (.foreignRedirect elsewhere) := by
  obtain ⟨location, hheader, hne, hresolve⟩ := h.location
  have hgiven : location.isEmpty = false := by simpa using hne
  have hforbidden := h.forbidden
  unfold Transfer.target
  simp only [hheader, Option.getD_some, hgiven, hresolve, Except.mapError, ok_bind,
    String.ofList_toList, hforbidden]
  rfl

/-- A redirect that leads elsewhere is the end of the trail. -/
theorem Trail.strays {address elsewhere : String} {limit : Nat} {replies : List Reply}
    {sent : List String} {outcome : Except Failure Delivery}
    (h : Trail address limit replies sent outcome) {i : Nat} {a : String} {r : Response}
    (ha : sent[i]? = some a) (hreply : replies[i]? = some (.response r))
    (hstrays : Strays a r elsewhere) :
    sent.length = i + 1 ∧ outcome = .error (.transfer (.foreignRedirect elsewhere)) := by
  -- the answer to the first request is the one that it was made from
  have hfirst : ∀ {replies : List Reply}, replies[0]? = some (.response r) →
      (replies.headD (.fault unanswered)).delivery = .ok ⟨r, none⟩ := by
    intro replies hr
    rw [List.headD_eq_head?_getD, List.head?_eq_getElem?, hr, Option.getD_some]
    rfl
  induction h generalizing i with
  | spent => cases ha
  | fault f hfault =>
    cases i with
    | zero =>
      rw [hfirst hreply] at hfault
      cases hfault
    | succ i => cases ha
  | response r' hreply' hr =>
    cases i with
    | zero =>
      rw [hfirst hreply] at hreply'
      cases hreply'
      rw [hstrays.isRedirect] at hr
      cases hr
    | succ i => cases ha
  | lost r' hreply' hr f htarget =>
    cases i with
    | zero =>
      rw [hfirst hreply] at hreply'
      cases hreply'
      cases ha
      rw [hstrays.target] at htarget
      cases htarget
      exact ⟨rfl, rfl⟩
    | succ i => cases ha
  | hop r' hreply' hr htarget hnext ih =>
    cases i with
    | zero =>
      rw [hfirst hreply] at hreply'
      cases hreply'
      cases ha
      rw [hstrays.target] at htarget
      cases htarget
    | succ i =>
      rw [← List.getElem?_tail] at hreply
      obtain ⟨hlength, houtcome⟩ := ih ha hreply
      exact ⟨by rw [List.length_cons, hlength], houtcome⟩

/-! ## What the steps of a transfer do -/

section

variable {R : Exchange → Exchange → Prop} [IsPreorder Exchange R]

theorem moves_ofExcept (r : Except Failure α) : Moves R (ofExcept r) := by
  cases r with
  | error d => exact moves_throw d
  | ok a => exact moves_pure a

/-- A step after a reading is taken only if there was something to read. -/
theorem moves_ofExcept_bind {r : Except Failure α} {f : α → Transfer β}
    (hf : ∀ a, r = .ok a → Moves R (f a)) : Moves R (ofExcept r >>= f) := by
  cases r with
  | error d => exact moves_throw d
  | ok a => exact hf a rfl

theorem moves_build (h : Moves R (follow metaAddress)) : Moves R build := by
  refine moves_bind h fun d => ?_
  refine moves_bind (moves_ofExcept _) fun _ => ?_
  refine moves_bind (moves_ofExcept _) fun _ => ?_
  refine moves_bind moves_get fun exchange => ?_
  exact moves_bind (moves_ofExcept _) fun v => moves_ofExcept _

theorem moves_isStale (h : Moves R (follow metaAddress)) : Moves R isStale := by
  refine moves_bind moves_get fun exchange => ?_
  refine moves_bind (moves_ofExcept _) fun given => ?_
  refine moves_bind (moves_ofExcept _) fun version => ?_
  split
  · exact moves_pure true
  · refine moves_bind ?_ fun found => ?_
    · refine moves_tryCatch (moves_map some (moves_build h)) fun d => ?_
      split
      · exact moves_pure none
      · exact moves_throw d
    · cases found with
      | none => exact moves_pure true
      | some published => exact moves_ofExcept _

theorem moves_status (h : Moves R (follow metaAddress)) : Moves R status := by
  refine moves_bind moves_get fun exchange => ?_
  refine moves_bind (moves_ofExcept _) fun given => ?_
  cases given with
  | none => exact moves_pure _
  | some record =>
    refine moves_bind (moves_ofExcept _) fun moment => ?_
    refine moves_bind (moves_ofExcept _) fun count => ?_
    refine moves_bind (moves_ofExcept _) fun version => ?_
    exact moves_bind (moves_isStale h) fun stale => moves_pure _

/-- What follows a look at the disk may use that nothing stands in the way. -/
theorem moves_reach_bind {name : String} {f : Unit → Transfer β}
    (h : ∀ e, e.files.obstacle? name = none → R e ((f ()).run.run e).2) :
    Moves R (reach name >>= f) := by
  intro e
  rw [run_reach_bind]
  cases hfree : e.files.obstacle? name with
  | some o => exact refl_of R e
  | none => exact h e hfree

theorem moves_save {address name : String} (h : Moves R (follow address))
    (hwrite : ∀ e body progress, e.files.obstacle? name = none →
      R e { e with files := e.files.write name body, progress := progress }) :
    Moves R (save address name) := by
  refine moves_bind h fun d => ?_
  refine moves_bind (moves_ofExcept _) fun _ => ?_
  refine moves_bind (moves_ofExcept _) fun expected => ?_
  refine moves_reach_bind fun e hfree => ?_
  exact trans_of R (hwrite e _ _ hfree) (moves_ofExcept (d.check.mapError Failure.transfer) _)

theorem moves_clear {name : String} (hremove : ∀ e, e.files.obstacle? name = none →
    R e { e with files := e.files.remove name }) : Moves R (clear name) :=
  moves_reach_bind fun e hfree => hremove e hfree

theorem moves_keep {name : String} {now : Timestamp} {published : Value}
    (hwrite : ∀ e record, e.files.obstacle? Directory.recordName = none →
      R e { e with files := e.files.writeRecord record }) : Moves R (keep name now published) :=
  moves_bind (moves_ofExcept _) fun record => moves_reach_bind fun e hfree => hwrite e record hfree

/-- Every attempt starts again at the address of the file. -/
theorem moves_attemptsFrom {address name : String} (hsave : Moves R (save address name))
    (hclear : Moves R (clear name)) (hpause : ∀ e pauses, R e { e with pauses := pauses })
    (total : Int) (left number : Nat) (last : Option Failure) :
    Moves R (attemptsFrom address name total left number last) := by
  induction left generalizing number last with
  | zero => exact moves_throw _
  | succ left ih =>
    have htried : Moves R (tryCatch (save address name *> pure none) fun e => pure (some e)) := by
      refine moves_tryCatch ?_ fun _ => moves_pure _
      exact moves_bind hsave fun _ => moves_pure none
    have hagain : ∀ e, Moves R (if isRetried e then do
        clear name
        attemptsFrom address name total left (number + 1) (some e)
      else throw e) := by
      intro e
      split
      · exact moves_bind hclear fun _ => ih _ _
      · exact moves_throw e
    rw [attemptsFrom]
    split
    · refine moves_bind (moves_modify fun e => hpause e _) fun _ => ?_
      refine moves_bind htried fun outcome => ?_
      cases outcome with
      | none => exact moves_pure ()
      | some e => exact hagain e
    · refine moves_bind htried fun outcome => ?_
      cases outcome with
      | none => exact moves_pure ()
      | some e => exact hagain e

end

/-! ## Transfers that keep to allowed addresses -/

/-- The log has become longer by requests of allowed addresses. -/
def Asks (e e' : Exchange) : Prop :=
  ∃ sent, e'.requests = e.requests ++ sent ∧ ∀ a ∈ sent, Address.isAllowed a = true

/-- What leaves the log as it is requests nothing. -/
theorem asks_of_same {e e' : Exchange} (h : e'.requests = e.requests) : Asks e e' :=
  ⟨[], by rw [h, List.append_nil], by simp⟩

instance : IsPreorder Exchange Asks where
  refl e := asks_of_same rfl
  trans e e' e'' := by
    rintro ⟨sent, hlog, hsent⟩ ⟨more, hmore, hallowed⟩
    refine ⟨sent ++ more, ?_, List.forall_mem_append.2 ⟨hsent, hallowed⟩⟩
    rw [hmore, hlog, List.append_assoc]

theorem asks_follow {address : String} (h : Address.isAllowed address = true) :
    Moves Asks (follow address) := by
  intro e
  obtain ⟨sent, htrail, hafter⟩ := trail_followFrom address requestLimit e
  exact ⟨sent, congrArg Exchange.requests hafter, htrail.allowed h⟩

theorem asks_build : Moves Asks build := moves_build (asks_follow isAllowed_metaAddress)

theorem asks_isStale : Moves Asks isStale := moves_isStale (asks_follow isAllowed_metaAddress)

theorem asks_status : Moves Asks status := moves_status (asks_follow isAllowed_metaAddress)

/-- A download asks for the build, and then for the file at the address that its name has. -/
theorem asks_download (name : String) (retries : Int) (now : Timestamp) :
    Moves Asks (download name retries now) := by
  refine moves_ofExcept_bind fun address haddress => ?_
  have hallowed := isAllowed_fileAddress (mapError_eq_ok.1 haddress)
  have hsave : Moves Asks (save address (storedName name)) :=
    moves_save (asks_follow hallowed) fun _ _ _ _ => asks_of_same rfl
  refine moves_bind asks_build fun published => ?_
  refine moves_bind (moves_attemptsFrom hsave (moves_clear fun _ _ => asks_of_same rfl)
    (fun _ _ => asks_of_same rfl) _ _ _ _) fun _ => ?_
  exact moves_bind (moves_keep fun _ _ _ => asks_of_same rfl) fun _ => moves_pure _

end Transfer

/-! ## What may be asked for -/

/-- What may be asked of the other side: the description of the build, a file by its name with
a number of retries, whether the record is out of date, and the state of the data. -/
inductive Errand where
  | build
  | download (name : String) (retries : Int) (now : Timestamp)
  | isStale
  | status

namespace Errand

/-- The exchange after an errand, whether it succeeded or not. -/
def after : Errand → Exchange → Exchange
  | build => Transfer.build.after
  | download name retries now => (Transfer.download name retries now).after
  | isStale => Transfer.isStale.after
  | status => Transfer.status.after

/-- The exchange after several errands. -/
def allAfter (errands : List Errand) (e : Exchange) : Exchange :=
  errands.foldl (fun e errand => errand.after e) e

theorem asks_after (errand : Errand) (e : Exchange) : Transfer.Asks e (errand.after e) := by
  cases errand with
  | build => exact Transfer.asks_build e
  | download name retries now => exact Transfer.asks_download name retries now e
  | isStale => exact Transfer.asks_isStale e
  | status => exact Transfer.asks_status e

theorem allAfter_requests (errands : List Errand) {e : Exchange}
    (h : ∀ a ∈ e.requests, Address.isAllowed a = true) :
    ∀ a ∈ (allAfter errands e).requests, Address.isAllowed a = true := by
  induction errands generalizing e with
  | nil => exact h
  | cons errand errands ih =>
    obtain ⟨sent, hlog, hsent⟩ := errand.asks_after e
    refine ih (e := errand.after e) ?_
    rw [hlog]
    exact List.forall_mem_append.2 ⟨h, hsent⟩

end Errand

/-- **Requests stay at the trusted host.** Whatever is asked for and whatever the other side
answers, every request goes to an allowed address, that is, to one with the secure scheme whose
host part is the trusted host to the letter. Following an address makes a limited number of
requests. If one of them is answered by a redirect that leads to an address which is not
allowed, then it is the last one, the transfer fails for that reason, and where it leads is not
requested. -/
theorem requests_allowed :
    (∀ (replies : List Reply) (files : Directory) (levels : Levels) (errands : List Errand),
      ∀ a ∈ (Errand.allAfter errands (Exchange.start replies files levels)).requests,
        Address.isAllowed a = true) ∧
    (∀ address, Address.isAllowed address = true ↔ ∃ p,
      Address.parse [] address.toList = .ok p ∧ p.scheme = "https".toList ∧
        p.host = "mtgjson.com".toList) ∧
    ∀ (address : String) (e : Exchange), ∃ sent,
      ((Transfer.follow address).after e).requests = e.requests ++ sent ∧
      sent.length ≤ requestLimit ∧
      ∀ (i : Nat) (a : String) (r : Response) (elsewhere : String), sent[i]? = some a →
        e.replies[i]? = some (.response r) → Transfer.Strays a r elsewhere →
          sent.length = i + 1 ∧
          (Transfer.follow address).outcome e = .error (.transfer (.foreignRedirect elsewhere)) ∧
          (Address.isAllowed address = true → elsewhere ∉ sent) := by
  refine ⟨fun replies files levels errands => ?_, fun address => Address.isAllowed_iff,
    fun address e => ?_⟩
  · exact Errand.allAfter_requests errands fun a ha => absurd ha List.not_mem_nil
  · obtain ⟨sent, htrail, hafter⟩ := Transfer.trail_followFrom address requestLimit e
    refine ⟨sent, congrArg Exchange.requests hafter, htrail.length_le, ?_⟩
    intro i a r elsewhere ha hreply hstrays
    obtain ⟨hlast, hfailed⟩ := htrail.strays ha hreply hstrays
    refine ⟨hlast, hfailed, fun haddress hmem => ?_⟩
    have hallowed := htrail.allowed haddress elsewhere hmem
    rw [hstrays.forbidden] at hallowed
    cases hallowed

/-- A redirect to another host is refused, and that host is not asked. -/
example : (Transfer.follow metaAddress).run.run (.start
      [.response ⟨302, [("Location", "/api/v5/Meta.json")], ""⟩,
        .response ⟨302, [("Location", "https://evil.com/AllPrintings.json")], ""⟩] .empty) =
    (.error (.transfer (.foreignRedirect "https://evil.com/AllPrintings.json")),
      ⟨[], ["https://mtgjson.com/api/v5/Meta.json", "https://mtgjson.com/api/v5/Meta.json"], [], [],
        .empty, .usual⟩) := by
  rfl

end CardArchive
