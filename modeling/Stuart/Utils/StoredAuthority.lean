/-
The authority of a rule that an external store keeps, as text.

A rule of Redis, MySQL or MongoDB has its access and its authority in one string, such as
`subpub|allow`.  `transform2Authority` takes the string apart.  It gives null for a blank string and
for an unknown code, and throws for a string with fewer than two parts; its callers look at the
answer without a check, so for them a string is readable or an exception (`readable_iff`).
-/
import Stuart.Utils.AuthUtil
import Mathlib.Data.List.DropRight

namespace Stuart

open List

/-- What a handler may throw. -/
inductive Thrown where
  | nullPointer
  | arrayIndexOutOfBounds
deriving DecidableEq

open StringUtils

namespace AclConst

def SUB : Str := ['s', 'u', 'b']

def PUB : Str := ['p', 'u', 'b']

def SUBPUB : Str := ['s', 'u', 'b', 'p', 'u', 'b']

def DENY : Str := ['d', 'e', 'n', 'y']

def ALLOW : Str := ['a', 'l', 'l', 'o', 'w']

def SEPARATOR : Char := '|'

end AclConst

open AclConst

/-- `toLowerCase`, as far as it can give one of the codes. -/
def toLowerCase (s : Str) : Str := s.map Char.toLower

def Access.strOf (value : Str) : Option Access :=
  if isBlank (some value) then none
  else if toLowerCase value = SUB then some .sub
  else if toLowerCase value = PUB then some .pub
  else if toLowerCase value = SUBPUB then some .subPub
  else none

def Authority.strOf (value : Str) : Option Authority :=
  if isBlank (some value) then none
  else if toLowerCase value = DENY then some .deny
  else if toLowerCase value = ALLOW then some .allow
  else none

namespace AuthUtil

/-- `value.split("\\|")`: the parts without the empty ones at the end. -/
def split (value : Str) : List Str :=
  if SEPARATOR ∈ value then (value.splitOn SEPARATOR).rdropWhile fun part => part.isEmpty
  else [value]

/-- The access and the authority of the object that is returned, or null. -/
def transform2Authority (value : Option Str) : Except Thrown (Option (Access × Authority)) :=
  match value with
  | none => .ok none
  | some value =>
      if isBlank (some value) then .ok none
      else
        match split value with
        | first :: second :: _ =>
            match Access.strOf first, Authority.strOf second with
            | some access, some authority => .ok (some (access, authority))
            | _, _ => .ok none
        | _ => .error .arrayIndexOutOfBounds

/-- `isMatch` with the topic of a stored rule, which may be null. -/
def isMatchStored (topic : Str) : Option Str → Bool
  | none => false
  | some filter => isMatch topic filter

/-- `getAccess` and `getAuthority` of the transformed authority. -/
def transformed (value : Option Str) : Except Thrown (Access × Authority) :=
  match transform2Authority value with
  | .ok (some found) => .ok found
  | .ok none => .error .nullPointer
  | .error thrown => .error thrown

/-- The text has two parts at least, and the first two are a known access and a known authority. -/
def WellFormed (value : Option Str) (access : Access) (authority : Authority) : Prop :=
  ∃ text first second rest, value = some text ∧ isBlank value = false ∧
    split text = first :: second :: rest ∧ Access.strOf first = some access ∧
    Authority.strOf second = some authority

/-- A string is read iff it is well formed. -/
lemma transformed_eq_ok_iff {value : Option Str} {access : Access} {authority : Authority} :
    transformed value = .ok (access, authority) ↔ WellFormed value access authority := by
  simp only [transformed, transform2Authority, WellFormed]
  constructor
  · intro h
    cases value with
    | none => cases h
    | some text =>
        by_cases hblank : isBlank (some text) = true
        · simp [hblank] at h
        · match hsplit : split text with
          | [] | [_] => simp [hblank, hsplit] at h
          | first :: second :: rest =>
              match haccess : Access.strOf first, hauthority : Authority.strOf second with
              | none, _ | some _, none => simp [hblank, hsplit, haccess, hauthority] at h
              | some access', some authority' =>
                  simp only [hblank, hsplit, haccess, hauthority, Bool.false_eq_true, if_false,
                    Except.ok.injEq, Prod.mk.injEq] at h
                  obtain ⟨rfl, rfl⟩ := h
                  exact ⟨text, first, second, rest, rfl, by simpa using hblank, hsplit, haccess,
                    hauthority⟩
  · rintro ⟨text, first, second, rest, rfl, hblank, hsplit, haccess, hauthority⟩
    simp [hblank, hsplit, haccess, hauthority]

/-- A readable text: it stands for some access and some authority. -/
def Readable (value : Option Str) : Prop :=
  ∃ access authority, WellFormed value access authority

lemma readable_iff {value : Option Str} :
    Readable value ↔ ∃ found, transformed value = .ok found := by
  constructor
  · rintro ⟨access, authority, h⟩
    exact ⟨(access, authority), transformed_eq_ok_iff.2 h⟩
  · rintro ⟨⟨access, authority⟩, h⟩
    exact ⟨access, authority, transformed_eq_ok_iff.1 h⟩

end AuthUtil

end Stuart
