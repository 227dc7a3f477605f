import ModGate.Body.Delivery

/-! How all the calls on one request share its body among them. In the abstract a call is dealt a
share of the body; what it answers and what the request keeps depend on the share alone, not on
the blocks in which the bytes arrive. -/

namespace ModGate.Body

open Url

/-- What a request keeps of the shares. -/
structure Holding where
  collected : Bytes
  form : Option ArgTable

section Dealing

variable (contentType : Option Bytes)

def readForm (h : Holding) (share : Bytes) : Holding :=
  match h.form, contentType with
  | some _, _ => h
  | none, none => h
  | none, some text =>
    if urlencoded <:+: text then
      ⟨h.collected ++ share ++ [0], some (parseQueryString (h.collected ++ share ++ [0]) [])⟩
    else { h with form := some (mergeArg [] (ascii "content-type") text) }

def after (h : Holding) (share : Bytes) : Call → Holding
  | .content callback => { h with collected := h.collected ++ if callback then [] else share }
  | .formData => readForm contentType h share
  | .readLine => h
  | .read _ => h

end Dealing

section Steps

variable {a : Apache} {r : Request}

end Steps

end ModGate.Body
