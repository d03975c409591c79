import CardArchive.Proofs.Download.Requests

/-!
# Chains of redirects

A redirect leads to the address that its location names, read against the address that was
requested, and an allowed one is requested next. The number of requests for one address is
limited, and the first of them is not made for a redirect. So a response is reached behind fewer
redirects than there are requests, and a chain that is as long as the limit is too long already.

## What this module delivers

* `Leads` and `Hops`: redirects, and chains of them with the addresses on the way.
* `Hops.trail`: the requests for a chain, and how they end.
* `follow_hops`: the response behind a chain is reached exactly if the chain is shorter than the
  limit.
* `follow_limit`: the limit itself is one redirect too many.
-/

set_option autoImplicit false

namespace CardArchive.Transfer

/-- A redirect whose location, read against the address that was requested, leads to an allowed
address. -/
structure Leads (address : String) (r : Response) (next : String) : Prop where
  isRedirect : r.isRedirect = true
  location : ∃ location, r.header? "location" = some location ∧ location ≠ "" ∧
    Address.resolve address.toList location.toList = .ok next.toList
  allowed : Address.isAllowed next = true

theorem Leads.target {address next : String} {r : Response} (h : Leads address r next) :
    Transfer.target address r = .ok next := by
  obtain ⟨location, hheader, hne, hresolve⟩ := h.location
  have hgiven : location.isEmpty = false := by simpa using hne
  have hallowed := h.allowed
  unfold Transfer.target
  simp only [hheader, Option.getD_some, hgiven, hresolve, Except.mapError, ok_bind,
    String.ofList_toList, hallowed]
  rfl

/-- Redirects each of which leads on from the address before, with all addresses of the chain. -/
inductive Hops : String → List Response → List String → Prop
  | stop (address : String) : Hops address [] [address]
  | hop {address next : String} {r : Response} {rs : List Response} {path : List String}
      (hleads : Leads address r next) (hrest : Hops next rs path) :
    Hops address (r :: rs) (address :: path)

section

variable {address : String} {rs : List Response} {path : List String} {final : Reply}
  {later : List Reply} {d : Delivery}

/-- One request is made for each address of the chain while requests are left. The response at
its end is reached if there are more requests than redirects. -/
theorem Hops.trail (h : Hops address rs path) (hfinal : final.delivery = .ok d)
    (hd : d.response.isRedirect = false) {limit : Nat} {sent : List String}
    {outcome : Except Failure Delivery}
    (htrail : Trail address limit (rs.map Reply.response ++ final :: later) sent outcome) :
    sent = path.take limit ∧ outcome = if rs.length < limit then .ok d
      else .error (.transfer (.tooManyRedirects requestLimit)) := by
  -- on the chain, for any limit, since every redirect uses up one request
  induction h generalizing limit sent outcome with
  | stop address =>
    cases htrail with
    | spent => exact ⟨rfl, rfl⟩
    | fault f hreply =>
      change final.delivery = .error f at hreply
      rw [hfinal] at hreply
      cases hreply
    | response d' hreply hr =>
      change final.delivery = .ok d' at hreply
      rw [hfinal] at hreply
      cases hreply
      exact ⟨by simp, by simp⟩
    | lost d' hreply hr | hop d' hreply hr =>
      change final.delivery = .ok d' at hreply
      rw [hfinal] at hreply
      cases hreply
      rw [hd] at hr
      cases hr
  | hop hleads hrest ih =>
    cases htrail with
    | spent => exact ⟨rfl, rfl⟩
    | fault f hreply => cases hreply
    | response d' hreply hr =>
      cases hreply
      rw [hleads.isRedirect] at hr
      cases hr
    | lost d' hreply hr f htarget =>
      cases hreply
      rw [hleads.target] at htarget
      cases htarget
    | hop d' hreply hr htarget hnext =>
      cases hreply
      rw [hleads.target] at htarget
      cases htarget
      obtain ⟨rfl, rfl⟩ := ih hnext
      exact ⟨by rw [List.take_succ_cons], by simp⟩

/-- How following an address ends at which a chain of redirects starts. -/
theorem Hops.outcome_follow (h : Hops address rs path) (hfinal : final.delivery = .ok d)
    (hd : d.response.isRedirect = false) {e : Exchange}
    (hreplies : e.replies = rs.map Reply.response ++ final :: later) :
    (follow address).outcome e = (if rs.length < requestLimit then .ok d
      else .error (.transfer (.tooManyRedirects requestLimit))) ∧
    (follow address).after e = { e with
      replies := e.replies.drop (path.take requestLimit).length
      requests := e.requests ++ path.take requestLimit } := by
  obtain ⟨sent, htrail, hafter⟩ := trail_followFrom address requestLimit e
  rw [hreplies] at htrail
  obtain ⟨rfl, houtcome⟩ := h.trail hfinal hd htrail
  exact ⟨houtcome, hafter⟩

end

/-- A redirect from the description of the build back to itself. -/
def detour : Response := ⟨302, [("Location", "/api/v5/Meta.json")], ""⟩

/-- A redirect to the same address that names it in full. -/
def fullDetour : Response := ⟨301, [("location", metaAddress)], ""⟩

/-- A response that is no redirect. -/
def answer : Response := ⟨200, [], ""⟩

theorem delivery_answer : (Reply.response answer).delivery = .ok ⟨answer, none⟩ := rfl

theorem leads_detour : Leads metaAddress detour metaAddress where
  isRedirect := rfl
  location := ⟨"/api/v5/Meta.json", rfl, by decide, rfl⟩
  allowed := isAllowed_metaAddress

theorem leads_fullDetour : Leads metaAddress fullDetour metaAddress where
  isRedirect := rfl
  location := ⟨metaAddress, rfl, by decide, rfl⟩
  allowed := isAllowed_metaAddress

theorem hops_detours (n : Nat) :
    Hops metaAddress (List.replicate n detour) (List.replicate (n + 1) metaAddress) := by
  induction n with
  | zero => exact .stop metaAddress
  | succ n ih => exact .hop leads_detour ih

/-- **Redirects are followed while requests are left.** A chain of redirects to allowed addresses
ends in a response that is none. The response is reached exactly if the redirects are fewer than
the requests that may be made for one address, and otherwise the transfer fails for too many
redirects. What is requested is the address and, in order, what the redirects lead to, until the
requests are used up. -/
theorem follow_hops {address : String} {rs : List Response} {path : List String} {final : Reply}
    {later : List Reply} {d : Delivery} {e : Exchange} (h : Hops address rs path)
    (hfinal : final.delivery = .ok d) (hd : d.response.isRedirect = false)
    (hreplies : e.replies = rs.map Reply.response ++ final :: later) :
    ((follow address).outcome e = .ok d ↔ rs.length < requestLimit) ∧
    ((follow address).outcome e = .error (.transfer (.tooManyRedirects requestLimit)) ↔
      requestLimit ≤ rs.length) ∧
    ((follow address).after e).requests = e.requests ++ path.take requestLimit := by
  obtain ⟨houtcome, hafter⟩ := h.outcome_follow hfinal hd hreplies
  rw [houtcome, hafter]
  by_cases hlt : rs.length < requestLimit
  · rw [if_pos hlt]
    exact ⟨iff_of_true rfl hlt, iff_of_false (by simp) (by omega), rfl⟩
  · rw [if_neg hlt]
    exact ⟨iff_of_false (by simp) hlt, iff_of_true rfl (by omega), rfl⟩

/-- Four redirects, one of them with an address in full, lead to the response. -/
theorem follow_fourDetours :
    let rs := fullDetour :: List.replicate 3 detour
    let e := Exchange.start (rs.map Reply.response ++ [.response answer]) .empty
    rs.length < requestLimit ∧ (follow metaAddress).outcome e = .ok ⟨answer, none⟩ ∧
      ((follow metaAddress).after e).requests = List.replicate 5 metaAddress := by
  intro rs e
  have hlt : rs.length < requestLimit := by decide
  have hchain : Hops metaAddress rs (List.replicate 5 metaAddress) :=
    .hop leads_fullDetour (hops_detours 3)
  have hreplies : e.replies = rs.map Reply.response ++ .response answer :: [] := rfl
  obtain ⟨hreached, -, hrequests⟩ := follow_hops hchain delivery_answer rfl hreplies
  exact ⟨hlt, hreached.2 hlt, hrequests⟩

/-- The limit itself is one redirect too many: it is a number of requests, and the last of them
is answered by the last redirect, so the response behind it is never asked for. -/
theorem follow_limit :
    let rs := List.replicate requestLimit detour
    let e := Exchange.start (rs.map Reply.response ++ [.response answer]) .empty
    Hops metaAddress rs (List.replicate (requestLimit + 1) metaAddress) ∧
      answer.isRedirect = false ∧ rs.length ≤ requestLimit ∧
      (follow metaAddress).outcome e ≠ .ok ⟨answer, none⟩ ∧
      ∃ f, (follow metaAddress).outcome e = .error f ∧
        f.message = "Too many redirects (max 5)" := by
  intro rs e
  have hchain := hops_detours requestLimit
  have hreplies : e.replies = rs.map Reply.response ++ .response answer :: [] := rfl
  have hfollow := (hchain.outcome_follow delivery_answer rfl hreplies).1
  rw [if_neg (by decide)] at hfollow
  refine ⟨hchain, rfl, by decide, ?_, _, hfollow, by decide⟩
  rw [hfollow]
  simp

end CardArchive.Transfer
