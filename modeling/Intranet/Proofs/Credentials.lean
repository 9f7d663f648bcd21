import Intranet.Documents.Remote
import Intranet.Proofs.Base64
import Intranet.Proofs.CookiePairs
import Intranet.Proofs.Tasks
import Intranet.Proofs.Utf8
import Intranet.Rehearsal

/-!
# The credential that the document service sees

The gateway calls the document backend for the person who is signed in: with that person's login
and secret. On the way to the service both become one text with a colon between them, and the
service takes it apart again at the first colon. The secret may have colons, then. A login may not:
what follows its first colon is taken for a part of the secret, and what stands before it for the
login.

* `Basic.read?_header` — reading a header is taking the joined text apart;
* `Basic.read?_header_eq_self_iff`, `Basic.exists_read?_header_of_mem` — the names that are read
  back, and what becomes of the others;
* `seen?` — the credential that the service sees in a call;
* `mem_calls_perform` — what the gateway calls the backend with;
* `credential_exact_iff` — the service sees the credential of the gateway, and nobody else calls
  with what it sees, exactly when the login has no colon;
* `colon_in_login` — otherwise someone else does.
-/

namespace Intranet

/-! ## Reading headers -/

namespace Http.Basic

/-- Before the first colon of a text is the name, and behind it the secret. -/
theorem splitAtColon?_eq {before : List Char} (hbefore : ':' ∉ before) (after : List Char) :
    splitAtColon? (before ++ ':' :: after) = some (String.ofList before, String.ofList after) := by
  rw [splitAtColon?, span_at hbefore]

/-- What is read from a header is the text that was encoded, taken apart. -/
theorem read?_header (name secret : String) :
    read? (header name secret) = splitAtColon? (name.toList ++ ':' :: secret.toList) := by
  have hbytes : Base64.decodeL? (Base64.encode (Utf8.encode (name ++ ":" ++ secret))).toList =
      some (Utf8.encode (name ++ ":" ++ secret)) := Base64.decode?_encode _
  have hscheme : scheme.toList.isPrefixOf (header name secret).toList = true := by
    rw [header, String.toList_append]
    exact List.isPrefixOf_iff_prefix.2 (List.prefix_append _ _)
  have hrest : (header name secret).toList.drop scheme.length =
      (Base64.encode (Utf8.encode (name ++ ":" ++ secret))).toList := by
    rw [header, String.toList_append]
    exact List.drop_left
  have hjoined : (name ++ ":" ++ secret).toList = name.toList ++ ':' :: secret.toList := by
    rw [String.toList_append, String.toList_append, List.append_assoc]
    rfl
  rw [read?, hscheme, hrest, hbytes]
  simp [Utf8.decode?_encode, hjoined]

/-- Without a colon in the name a header is read back. -/
theorem read?_header_of_not_mem {name : String} (h : ':' ∉ name.toList) (secret : String) :
    read? (header name secret) = some (name, secret) := by
  rw [read?_header, splitAtColon?_eq h, String.ofList_toList, String.ofList_toList]

/-- With a colon in the name a header is read as that of another name, which has none. -/
theorem exists_read?_header_of_mem {name : String} (h : ':' ∈ name.toList) (secret : String) :
    ∃ user rest, read? (header name secret) = some (user, rest) ∧ ':' ∉ user.toList ∧
      user ≠ name := by
  obtain ⟨before, after, hname, hbefore⟩ := List.eq_append_cons_of_mem h
  refine ⟨String.ofList before, String.ofList (after ++ ':' :: secret.toList), ?_, ?_, ?_⟩
  · rw [read?_header, hname, List.append_assoc, List.cons_append, splitAtColon?_eq hbefore]
  · rwa [String.toList_ofList]
  · rintro rfl
    rw [String.toList_ofList] at h
    exact hbefore h

/-- The names whose headers are read back are those without a colon. -/
theorem read?_header_eq_self_iff {name secret : String} :
    read? (header name secret) = some (name, secret) ↔ ':' ∉ name.toList := by
  refine ⟨fun hread hmem => ?_, fun h => read?_header_of_not_mem h secret⟩
  obtain ⟨user, rest, huser, -, hne⟩ := exists_read?_header_of_mem hmem secret
  rw [hread, Option.some.injEq, Prod.mk.injEq] at huser
  exact hne huser.1.symm

end Http.Basic

/-! ## The service -/

namespace Documents

open Intranet.Task (exec)

/-- The credential that the service sees in a call. -/
def seen? (call : Call) : Option Credential :=
  (Http.Basic.read? (Remote.message call).authorization).map fun (name, secret) => ⟨name, secret⟩

/-- The service sees the credential of a call unless its name has a colon. -/
theorem seen?_eq_self_iff {call : Call} :
    seen? call = some call.credential ↔ ':' ∉ call.credential.username.toList := by
  constructor
  · intro h
    obtain ⟨⟨name, secret⟩, hread, hcredential⟩ := Option.map_eq_some_iff.1 h
    refine Http.Basic.read?_header_eq_self_iff.1 (hread.trans ?_)
    rw [← hcredential]
  · intro h
    have hread := Http.Basic.read?_header_of_not_mem h call.credential.secret
    rw [seen?, Remote.message, hread]
    rfl

/-- Calls without colons in their names that the service sees with one credential have one
credential. -/
theorem credential_eq_of_seen?_eq {call other : Call}
    (hcall : ':' ∉ call.credential.username.toList)
    (hother : ':' ∉ other.credential.username.toList) (h : seen? other = seen? call) :
    other.credential = call.credential := by
  rw [seen?_eq_self_iff.2 hcall, seen?_eq_self_iff.2 hother] at h
  exact Option.some.inj h

/-- A call with a colon in its name is seen as the call of another name, which has none. -/
theorem exists_seen?_eq (call : Call) (h : ':' ∈ call.credential.username.toList) :
    ∃ other : Call, ':' ∉ other.credential.username.toList ∧ seen? other = seen? call ∧
      other.credential ≠ call.credential := by
  obtain ⟨user, rest, hread, huser, hne⟩ :=
    Http.Basic.exists_read?_header_of_mem h call.credential.secret
  refine ⟨{ call with credential := ⟨user, rest⟩ }, huser, ?_,
    fun heq => hne (congrArg Credential.username heq)⟩
  rw [seen?_eq_self_iff.2 huser, seen?, Remote.message, hread]
  rfl

/-! ## The gateway -/

/-- The gateway calls the backend for the person who is signed in, with that person's secret. -/
theorem mem_calls_perform {backend : Backend} {caller : Caller} {path : String} {request : Request}
    {l : Ledger} {call : Call}
    (h : call ∈ (exec (perform backend caller path request) l).2.documentCalls.drop
      l.documentCalls.length) :
    ∃ user secret, caller.user = some user ∧ caller.credential = some secret ∧ secret ≠ "" ∧
      call = ⟨request, ⟨user.login, secret⟩, path⟩ := by
  have hnone : call ∉ l.documentCalls.drop l.documentCalls.length := by
    rw [List.drop_length]
    exact List.not_mem_nil
  rw [exec_perform] at h
  cases hcredential : credential? caller path with
  | none =>
    rw [hcredential] at h
    exact absurd h hnone
  | some credential =>
    obtain ⟨user, secret, huser, hsecret, hne, -, rfl⟩ := credential?_eq_some hcredential
    rw [hcredential] at h
    cases hpath : checkPath path with
    | error failure =>
      simp only [hpath] at h
      exact absurd h hnone
    | ok =>
      simp only [hpath] at h
      have hcall :
          call ∈ (l.documentCalls ++ [(⟨request, ⟨user.login, secret⟩, path⟩ : Call)]).drop
            l.documentCalls.length := h
      rw [List.drop_left, List.mem_singleton] at hcall
      exact ⟨user, secret, huser, hsecret, hne, hcall⟩

/-- **The credential of a call.** Whatever the gateway calls the backend with is the login and the
secret of the person who is signed in. The service sees just that, and no other credential without
a colon in its name looks the same to it, exactly when the login has no colon. -/
theorem credential_exact_iff {backend : Backend} {caller : Caller} {path : String}
    {request : Request} {l : Ledger} {call : Call}
    (h : call ∈ (exec (perform backend caller path request) l).2.documentCalls.drop
      l.documentCalls.length) :
    ∃ user secret, caller.user = some user ∧ caller.credential = some secret ∧ secret ≠ "" ∧
      call = ⟨request, ⟨user.login, secret⟩, path⟩ ∧
      (seen? call = some ⟨user.login, secret⟩ ↔ ':' ∉ user.login.toList) ∧
      ((∀ other : Call, ':' ∉ other.credential.username.toList → seen? other = seen? call →
        other.credential = ⟨user.login, secret⟩) ↔ ':' ∉ user.login.toList) := by
  obtain ⟨user, secret, huser, hsecret, hne, rfl⟩ := mem_calls_perform h
  refine ⟨user, secret, huser, hsecret, hne, rfl, seen?_eq_self_iff, ?_, ?_⟩
  · intro hall hmem
    obtain ⟨other, hother, hseen, hdiffers⟩ :=
      exists_seen?_eq ⟨request, ⟨user.login, secret⟩, path⟩ hmem
    exact hdiffers (hall other hother hseen)
  · exact fun hlogin other hother hseen => credential_eq_of_seen?_eq hlogin hother hseen

/-! ### With and without a colon -/

/-- A person with a login. -/
def person (login : String) : Principal := ⟨⟨0, by decide⟩, login, login, false⟩

/-- The calls that are made when a person asks for a link to a folder. -/
def linkCalls (login secret : String) : List Call :=
  (exec (perform (⟨[], []⟩ : Rehearsal.Shelf).backend ⟨some (person login), some secret⟩ "/docs"
    .fileUrl) .empty).2.documentCalls

/-- A secret may have colons. -/
theorem credential_exact_jdoe :
    (⟨.fileUrl, ⟨"jdoe", "s:t"⟩, "/docs"⟩ : Call) ∈ linkCalls "jdoe" "s:t" ∧
      seen? ⟨.fileUrl, ⟨"jdoe", "s:t"⟩, "/docs"⟩ = some ⟨"jdoe", "s:t"⟩ ∧
      ∀ other : Call, ':' ∉ other.credential.username.toList →
        seen? other = seen? ⟨.fileUrl, ⟨"jdoe", "s:t"⟩, "/docs"⟩ →
          other.credential = ⟨"jdoe", "s:t"⟩ := by
  have hcall : (⟨.fileUrl, ⟨"jdoe", "s:t"⟩, "/docs"⟩ : Call) ∈ linkCalls "jdoe" "s:t" := by
    decide +kernel
  obtain ⟨user, secret, huser, hsecret, -, -, hseen, hothers⟩ :=
    credential_exact_iff (l := .empty) hcall
  cases huser
  cases hsecret
  have hlogin : ':' ∉ (person "jdoe").login.toList := by decide
  exact ⟨hcall, hseen.2 hlogin, hothers.2 hlogin⟩

/-- Who has a colon in the login is taken for someone else: for the one whose login stands before
it. -/
theorem colon_in_login :
    linkCalls "a:b" "c" = [⟨.fileUrl, ⟨"a:b", "c"⟩, "/docs"⟩] ∧
      linkCalls "a" "b:c" = [⟨.fileUrl, ⟨"a", "b:c"⟩, "/docs"⟩] ∧
      seen? ⟨.fileUrl, ⟨"a:b", "c"⟩, "/docs"⟩ = some ⟨"a", "b:c"⟩ ∧
      seen? ⟨.fileUrl, ⟨"a", "b:c"⟩, "/docs"⟩ = some ⟨"a", "b:c"⟩ := by
  have hread : Http.Basic.read? (Http.Basic.header "a:b" "c") = some ("a", "b:c") := by
    rw [Http.Basic.read?_header]
    decide
  refine ⟨by decide +kernel, by decide +kernel, ?_, seen?_eq_self_iff.2 (by decide)⟩
  rw [seen?, Remote.message, hread]
  rfl

end Documents

end Intranet
