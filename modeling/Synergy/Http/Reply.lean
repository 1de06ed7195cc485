import Synergy.Http.Text

/-!
# Writing a reply

`CHTTPProtocol::reply` drops the caller's `Content-Length`, `Date` and `Transfer-Encoding`
headers (caselessly), then writes the status line, its own `Date`, the caller's remaining
headers in order, its own `Content-Length` when the status allows a body, `Connection:
close` and a blank line; then the body, unless the status forbids one or the method is HEAD.

* `reply` — the writes it makes and the reply as it leaves it; `date` is the `strftime` text
  of the current time, which the model takes as given;
* `adjustHeaders` — the loop that erases the replaced headers while it iterates, which keeps
  the others in order and skips none (`adjustHeaders_eq`);
* `reply_effect` — **PROVED**: the exact effect of `reply` on every reply: the header list
  left to it, and the bytes of its two writes;
* `replyFields` and `reply_header` — **PROVED**: the header block is the status line, one
  `name: value` line for each of `replyFields`, and a blank line;
* `reply_framing` — **PROVED**, for every reply and every caller header list: one `Date`
  field, one `Content-Length` field carrying the body's size exactly when the status allows a
  body, and the caller's own `Connection` fields ahead of the one `Connection: close`.  The
  filter does not remove a caller's `Connection` header (`reply_keeps_connection`).
-/

namespace Synergy.Http

/-- A reply as the caller hands it to `CHTTPProtocol::reply`; its header list allows
repeated names. -/
structure CHTTPReply where
  m_majorVersion : Int
  m_minorVersion : Int
  m_status : Int
  m_reason : List Char
  m_method : List Char
  m_headers : List (List Char × List Char)
  m_body : List Char
deriving DecidableEq, Repr

/-- Replies with a status `1xx`, 204 or 304 have no body (`m_status / 100` truncates). -/
def hasBody (status : Int) : Bool := !(status.tdiv 100 = 1 || status = 204 || status = 304)

/-- The caller's headers that `reply` erases from its list. -/
def isReplacedHeader (name : List Char) : Bool :=
  CaselessCmp.equal name "Content-Length".toList || CaselessCmp.equal name "Date".toList ||
    CaselessCmp.equal name "Transfer-Encoding".toList

/-- The names `reply` erases, in lower case. -/
def replacedNames : List (List Char) :=
  ["content-length".toList, "date".toList, "transfer-encoding".toList]

/-- `reply` erases a header exactly when its name, in lower case, is one of
`replacedNames`. -/
theorem isReplacedHeader_iff (name : List Char) :
    isReplacedHeader name = true ↔ name.map Char.toLower ∈ replacedNames := by
  have h₁ : "Content-Length".toList.map Char.toLower = "content-length".toList := by decide
  have h₂ : "Date".toList.map Char.toLower = "date".toList := by decide
  have h₃ : "Transfer-Encoding".toList.map Char.toLower = "transfer-encoding".toList := by decide
  simp only [isReplacedHeader, Bool.or_eq_true, CaselessCmp.equal_iff, h₁, h₂, h₃, replacedNames,
    List.mem_cons, List.mem_singleton, List.not_mem_nil, or_false, or_assoc]

/-- A header line, `name: value` and CRLF. -/
def renderField (field : List Char × List Char) : List Char :=
  field.1 ++ ": ".toList ++ field.2 ++ crlf

/-- `HTTP/<major>.<minor> <status> <reason>` and CRLF, the numbers as `ostream` prints an
`int`. -/
def statusLine (r : CHTTPReply) : List Char :=
  "HTTP/".toList ++ (toString r.m_majorVersion).toList ++ ['.'] ++
    (toString r.m_minorVersion).toList ++ [' '] ++ (toString r.m_status).toList ++ [' '] ++
    r.m_reason ++ crlf

/-- The header loop of `reply`.  The iterator stands between `passed`, the entries it has
stepped over, and the entries still ahead of it: `erase` removes the entry under it and
returns the next, `++index` steps over it. -/
def adjustHeaders : List (List Char × List Char) → List (List Char × List Char) →
    List (List Char × List Char)
  | passed, [] => passed
  | passed, h :: rest =>
    if isReplacedHeader h.1 then adjustHeaders passed rest
    else adjustHeaders (passed ++ [h]) rest

/-- The loop keeps the entries it steps over, in order, and skips none. -/
@[simp] theorem adjustHeaders_eq (passed hs : List (List Char × List Char)) :
    adjustHeaders passed hs = passed ++ hs.filter fun h => !isReplacedHeader h.1 := by
  induction hs generalizing passed with
  | nil => simp [adjustHeaders]
  | cons h hs ih => by_cases hr : isReplacedHeader h.1 <;> simp [adjustHeaders, hr, ih]

/-- `CHTTPProtocol::reply`: the two `stream->write` calls (the header block, then the body
when there is one to send) and the reply as the header loop leaves it. -/
def reply (date : List Char) (r : CHTTPReply) : List (List Char) × CHTTPReply :=
  let hasBody := hasBody r.m_status
  -- remove certain headers
  let r := { r with m_headers := adjustHeaders [] r.m_headers }
  let header :=
    statusLine r ++ "Date: ".toList ++ date ++ crlf ++ (r.m_headers.map renderField).flatten ++
      (if hasBody then "Content-Length: ".toList ++ (toString r.m_body.length).toList ++ crlf
        else []) ++
      "Connection: close".toList ++ crlf ++ crlf
  (header :: (if hasBody ∧ r.m_method ≠ "HEAD".toList then [r.m_body] else []), r)

/-- The header fields `reply` writes, in the order it writes them. -/
def replyFields (date : List Char) (r : CHTTPReply) : List (List Char × List Char) :=
  ("Date".toList, date) :: r.m_headers.filter (fun h => !isReplacedHeader h.1) ++
    (if hasBody r.m_status then [("Content-Length".toList, (toString r.m_body.length).toList)]
      else []) ++
    [("Connection".toList, "close".toList)]

/-- The header block is the status line, the fields of `replyFields` and a blank line. -/
theorem reply_header (date : List Char) (r : CHTTPReply) :
    (reply date r).1.head? =
      some (statusLine r ++ ((replyFields date r).map renderField).flatten ++ crlf) := by
  cases h : hasBody r.m_status <;>
    simp [reply, replyFields, statusLine, renderField, h, List.append_assoc]

/-- **What `reply` does.**  For every reply and date text, it leaves the reply with the
header entries whose name is, in lower case, `content-length`, `date` or `transfer-encoding`
removed, the others in their order, and every other field as it was; and it writes the
header block (the status line, `Date`, the remaining entries in order, `Content-Length` when
the status allows a body, `Connection: close`, a blank line), then the body when the status
allows one and the method is not HEAD. -/
theorem reply_effect (date : List Char) (r : CHTTPReply) :
    (reply date r).2 =
      { r with m_headers := r.m_headers.filter fun h => h.1.map Char.toLower ∉ replacedNames } ∧
    (reply date r).1 =
      (statusLine r ++ renderField ("Date".toList, date) ++
        ((r.m_headers.filter fun h => h.1.map Char.toLower ∉ replacedNames).map renderField).flatten ++
        (if hasBody r.m_status then
          renderField ("Content-Length".toList, (toString r.m_body.length).toList) else []) ++
        renderField ("Connection".toList, "close".toList) ++ crlf) ::
      (if hasBody r.m_status ∧ r.m_method ≠ "HEAD".toList then [r.m_body] else []) := by
  have hkeep : (fun h : List Char × List Char => !isReplacedHeader h.1) =
      fun h => decide (h.1.map Char.toLower ∉ replacedNames) := by
    funext h
    have := isReplacedHeader_iff h.1
    cases hr : isReplacedHeader h.1 <;> simp_all
  cases hb : hasBody r.m_status <;>
    simp [reply, hkeep, hb, statusLine, renderField, List.append_assoc]

/-- Stripped entries side by side and at both ends of the list. -/
example :
    (reply "d".toList ⟨1, 0, 200, "OK".toList, "GET".toList,
      [("date".toList, "x".toList), ("CONTENT-length".toList, "5".toList), ("X".toList, "1".toList),
        ("Transfer-Encoding".toList, "chunked".toList)], "hi".toList⟩).2.m_headers =
      [("X".toList, "1".toList)] := by
  decide

/-- The fields named `name`, compared as `CaselessCmp` compares. -/
def fieldsNamed (name : List Char) (fields : List (List Char × List Char)) :
    List (List Char × List Char) :=
  fields.filter fun f => CaselessCmp.equal f.1 name

/-- A field named like one of the replaced headers is named like no other of the names
`reply` writes. -/
theorem fieldsNamed_filter_replaced (name : List Char) (hname : isReplacedHeader name = true)
    (hs : List (List Char × List Char)) :
    fieldsNamed name (hs.filter fun h => !isReplacedHeader h.1) = [] := by
  simp only [fieldsNamed, List.filter_filter, List.filter_eq_nil_iff, Bool.and_eq_true,
    Bool.not_eq_true', not_and, Bool.not_eq_false]
  intro h _ heq
  simp only [isReplacedHeader, Bool.or_eq_true, CaselessCmp.equal_iff] at hname ⊢
  rw [CaselessCmp.equal_iff] at heq
  rw [heq]
  exact hname

/-- `equal` sees only the lower-case form of its left argument. -/
theorem CaselessCmp.equal_congr_left {a b : List Char} (c : List Char)
    (h : a.map Char.toLower = b.map Char.toLower) :
    CaselessCmp.equal a c = CaselessCmp.equal b c := by
  rw [Bool.eq_iff_iff, CaselessCmp.equal_iff, CaselessCmp.equal_iff, h]

theorem fieldsNamed_connection_filter (hs : List (List Char × List Char)) :
    fieldsNamed "Connection".toList (hs.filter fun h => !isReplacedHeader h.1) =
      fieldsNamed "Connection".toList hs := by
  simp only [fieldsNamed, List.filter_filter]
  congr 1
  funext h
  cases hc : CaselessCmp.equal h.1 "Connection".toList
  · simp
  · -- a `Connection` field is named like none of the replaced headers
    have hr : isReplacedHeader h.1 = isReplacedHeader "Connection".toList := by
      simp only [isReplacedHeader,
        CaselessCmp.equal_congr_left _ ((CaselessCmp.equal_iff _ _).mp hc)]
    simp [hr]
    decide

/-- **The framing of every reply.**  Whatever the caller's header list: the header block is
the status line and one line per field of `replyFields`; there is one `Date` field; there is
a `Content-Length` field exactly when the status allows a body, and then one, with the body's
size; the `Connection` fields are the caller's own, in order, and then the one
`Connection: close`; the body follows the header block exactly when the status allows one
and the method is not HEAD. -/
theorem reply_framing (date : List Char) (r : CHTTPReply) :
    (reply date r).1.head? =
      some (statusLine r ++ ((replyFields date r).map renderField).flatten ++ crlf) ∧
    fieldsNamed "Date".toList (replyFields date r) = [("Date".toList, date)] ∧
    fieldsNamed "Content-Length".toList (replyFields date r) =
      (if hasBody r.m_status then [("Content-Length".toList, (toString r.m_body.length).toList)]
        else []) ∧
    fieldsNamed "Connection".toList (replyFields date r) =
      fieldsNamed "Connection".toList r.m_headers ++ [("Connection".toList, "close".toList)] ∧
    (reply date r).1.tail =
      (if hasBody r.m_status ∧ r.m_method ≠ "HEAD".toList then [r.m_body] else []) := by
  have hdate := fieldsNamed_filter_replaced "Date".toList (by decide) r.m_headers
  have hlen := fieldsNamed_filter_replaced "Content-Length".toList (by decide) r.m_headers
  have hconn := fieldsNamed_connection_filter r.m_headers
  simp only [fieldsNamed] at hdate hlen hconn
  have e₁ : CaselessCmp.equal "Date".toList "Date".toList = true := by decide
  have e₂ : CaselessCmp.equal "Content-Length".toList "Date".toList = false := by decide
  have e₃ : CaselessCmp.equal "Connection".toList "Date".toList = false := by decide
  have e₄ : CaselessCmp.equal "Date".toList "Content-Length".toList = false := by decide
  have e₅ : CaselessCmp.equal "Content-Length".toList "Content-Length".toList = true := by decide
  have e₆ : CaselessCmp.equal "Connection".toList "Content-Length".toList = false := by decide
  have e₇ : CaselessCmp.equal "Date".toList "Connection".toList = false := by decide
  have e₈ : CaselessCmp.equal "Content-Length".toList "Connection".toList = false := by decide
  have e₉ : CaselessCmp.equal "Connection".toList "Connection".toList = true := by decide
  refine ⟨reply_header date r, ?_, ?_, ?_, ?_⟩ <;>
    cases hb : hasBody r.m_status <;>
    simp [-String.toList, replyFields, fieldsNamed, List.filter_cons, hdate, hlen, hconn, hb, reply,
      e₁, e₂, e₃, e₄, e₅, e₆, e₇, e₈, e₉]

/-- A reply whose caller asked for a persistent connection. -/
def keepAliveReply : CHTTPReply :=
  ⟨1, 0, 200, "OK".toList, "GET".toList, [("Connection".toList, "keep-alive".toList)],
    "hi".toList⟩

/-- `reply` writes both the caller's `Connection: keep-alive` and its own
`Connection: close`. -/
theorem reply_keeps_connection :
    (reply "Sat, 08 Nov 2026 00:00:00 GMT".toList keepAliveReply).1.head? =
      some ("HTTP/1.0 200 OK\r\nDate: Sat, 08 Nov 2026 00:00:00 GMT\r\n" ++
        "Connection: keep-alive\r\nContent-Length: 2\r\nConnection: close\r\n\r\n").toList := by
  decide

end Synergy.Http
