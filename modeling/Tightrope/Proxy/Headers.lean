import Tightrope.Core.Ascii

namespace Tightrope.Proxy

open Bytes Tightrope.Core

abbrev HeaderMap := List (Bytes × Bytes)

def codexSessionIdName : Bytes := ofString "x-codex-session-id"

def sessionIdName : Bytes := ofString "session_id"

def turnStateName : Bytes := ofString "x-codex-turn-state"

def apiKeyIdName : Bytes := ofString "x-tightrope-api-key-id"

def accountIdName : Bytes := ofString "chatgpt-account-id"

namespace HeaderMap

def findCaseInsensitive (headers : HeaderMap) (key : Bytes) : Bytes :=
  match headers.find? fun header => equalsCaseInsensitive header.1 key with
  | none => []
  | some header => trimAscii header.2

theorem trimmed_findCaseInsensitive (headers : HeaderMap) (key : Bytes) :
    Trimmed (headers.findCaseInsensitive key) := by
  unfold findCaseInsensitive
  split
  · exact ⟨by simp, by simp⟩
  · exact trimmed_trimAscii _

theorem findCaseInsensitive_cons (name value key : Bytes) (headers : HeaderMap) :
    findCaseInsensitive ((name, value) :: headers) key =
      if equalsCaseInsensitive name key then trimAscii value else findCaseInsensitive headers key := by
  unfold findCaseInsensitive
  rw [List.find?_cons]
  cases equalsCaseInsensitive name key <;> rfl

@[simp] theorem findCaseInsensitive_nil (key : Bytes) : findCaseInsensitive [] key = [] := rfl

theorem findCaseInsensitive_eq_nil {headers : HeaderMap} {key : Bytes}
    (h : ∀ header ∈ headers, equalsCaseInsensitive header.1 key = false) : headers.findCaseInsensitive key = [] := by
  have hnone : headers.find? (fun header => equalsCaseInsensitive header.1 key) = none := by
    rw [List.find?_eq_none]
    intro header hmem
    simp [h header hmem]
  rw [findCaseInsensitive, hnone]

def hasKey (headers : HeaderMap) (name : Bytes) : Bool := headers.any fun header => header.1 = name

def hasKeyCaseInsensitive (headers : HeaderMap) (wanted : Bytes) : Bool :=
  headers.any fun header => toLowerAscii header.1 = toLowerAscii wanted

def setValue (name value : Bytes) (header : Bytes × Bytes) : Bytes × Bytes :=
  if header.1 = name then (name, value) else header

end HeaderMap

structure IterationOrder where
  arrange : HeaderMap → HeaderMap
  perm : ∀ headers, (arrange headers).Perm headers

namespace IterationOrder

variable (order : IterationOrder)

def insertionOrder : IterationOrder := ⟨id, fun headers => .refl headers⟩

-- `headers[name] = value`
def assign (headers : HeaderMap) (name value : Bytes) : HeaderMap :=
  if headers.hasKey name then headers.map (HeaderMap.setValue name value)
  else order.arrange ((name, value) :: headers)

-- `headers.emplace(name, value)`
def emplace (headers : HeaderMap) (header : Bytes × Bytes) : HeaderMap :=
  if headers.hasKey header.1 then headers else order.arrange (header :: headers)

variable {order}

theorem mem_arrange {headers : HeaderMap} {header : Bytes × Bytes} :
    header ∈ order.arrange headers ↔ header ∈ headers := (order.perm headers).mem_iff

theorem mem_assign {headers : HeaderMap} {name value : Bytes} {header : Bytes × Bytes}
    (h : header ∈ order.assign headers name value) : header = (name, value) ∨ header ∈ headers := by
  unfold assign at h
  split_ifs at h
  · obtain ⟨old, hold, rfl⟩ := List.mem_map.mp h
    unfold HeaderMap.setValue
    split_ifs
    · exact .inl rfl
    · exact .inr hold
  · exact List.mem_cons.mp (mem_arrange.mp h)

end IterationOrder

end Tightrope.Proxy
