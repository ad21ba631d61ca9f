/-
The stored accounts: those of the administrators and those of the MQTT users.

A cache keeps a password as the ciphertext that `encryptBase64` makes of it, and a given password is
compared with a stored one by encrypting it too.  The lemmas say what each operation does to a book
of the same accounts with their passwords in plain text, which is what the operations are about: as
different passwords have different ciphertexts, an operation succeeds iff it would on the book, and
then it makes the same change there.
-/
import Stuart.Caches.AclStore
import Stuart.Utils.StoredAuthority
import Mathlib.Logic.Function.Basic

namespace Stuart

open Lib StringUtils

/-- `MqttAdmin` and `MqttUser`, with the same fields; `account` is the `username` of a user. -/
structure MqttAccount where
  account : Option Str
  password : Option Str
  desc : Option Str
  createAccount : Option Str
  createTime : ℤ
  updateAccount : Option Str
  updateTime : ℤ
deriving DecidableEq

abbrev AccountCache := PlainMap Str MqttAccount

namespace CacheConst

def ERROR : ℤ := -99

def EXISTED : ℤ := -1

def SYS_ADMIN_ACCOUNT : Str := ['a', 'd', 'm', 'i', 'n']

def SYS_ADMIN_PASSWORD : Str := ['s', 't', 'u', 'a', 'r', 't']

end CacheConst

open CacheConst

namespace MqttAccount

/-- The account with a password and the creation data of the old one. -/
def replacing (admin old : MqttAccount) (password : Option Str) : MqttAccount :=
  { admin with
    password := password
    createAccount := old.createAccount
    createTime := old.createTime }

/-- The account as a cache keeps it. -/
def encrypted (encryptBase64 : Str → Str) (admin : MqttAccount) : MqttAccount :=
  { admin with password := admin.password.map encryptBase64 }

end MqttAccount

open MqttAccount

namespace AccountCache

/-- `get` of both caches. -/
def get (cache : AccountCache) (account : Option Str) : Option MqttAccount :=
  if isBlank account then none else account.bind (PlainMap.get cache)

/-- `add` of both caches. -/
def add (encryptBase64 : Str → Str) (cache : AccountCache) (admin : MqttAccount) :
    ℤ × AccountCache :=
  if isBlank admin.account || isBlank admin.password then (ERROR, cache)
  else match admin.account with
    | none => (ERROR, cache)
    | some account =>
        if cache.containsKey account then (EXISTED, cache)
        else (SUCCEEDED, cache.put account (admin.encrypted encryptBase64))

/-- `delete` of both caches; only that of the administrators refuses an account. -/
def delete (refused : Option Str) (cache : AccountCache) (account : Option Str) :
    ℤ × AccountCache :=
  if isBlank account || decide (refused = account) then (ERROR, cache)
  else match account with
    | none => (ERROR, cache)
    | some account =>
        if cache.containsKey account then (SUCCEEDED, cache.remove account) else (NONE, cache)

/-- `update` of both caches, which keeps the password; `cache.get` of null throws. -/
def update (cache : AccountCache) (admin : MqttAccount) : Option (ℤ × AccountCache) :=
  admin.account.map fun account =>
    match PlainMap.get cache account with
    | some old => (SUCCEEDED, cache.put account (admin.replacing old old.password))
    | none => (NONE, cache)

end AccountCache

open AccountCache

namespace AdminCacheImpl

/-- `init` on a cache without accounts puts the system administrator there. -/
def init (encryptBase64 : Str → Str) (cache : AccountCache) : AccountCache :=
  if cache.values.length > 0 then cache
  else cache.put SYS_ADMIN_ACCOUNT
    ⟨some SYS_ADMIN_ACCOUNT, some (encryptBase64 SYS_ADMIN_PASSWORD), none, none, 0, none, 0⟩

def delete (cache : AccountCache) (account : Option Str) : ℤ × AccountCache :=
  AccountCache.delete (some SYS_ADMIN_ACCOUNT) cache account

/-- `update` with a new password. -/
def updatePasswd (encryptBase64 : Str → Str) (cache : AccountCache) (admin : MqttAccount)
    (oldPasswd newPasswd : Option Str) : ℤ × AccountCache :=
  if isBlank oldPasswd || isBlank newPasswd || decide (oldPasswd = newPasswd) then (ERROR, cache)
  else match admin.account, get cache admin.account with
    | some account, some old =>
        if oldPasswd.map encryptBase64 ≠ old.password then (ERROR, cache)
        else (SUCCEEDED, cache.put account (admin.replacing old (newPasswd.map encryptBase64)))
    | _, _ => (NONE, cache)

end AdminCacheImpl

namespace UserCacheImpl

def delete (cache : AccountCache) (username : Option Str) : ℤ × AccountCache :=
  AccountCache.delete none cache username

/-- `update` with the password of the user, for which an administrator gives the own one.  The
passwords of the administrators have a cipher of their own, `AesUtil`. -/
def updatePasswd (aesUtil encryptBase64 : Str → Str) (adminCache cache : AccountCache)
    (user : MqttAccount) (adminAccount adminPasswd : Option Str) : Option (ℤ × AccountCache) :=
  match get adminCache adminAccount with
  | none => some (ERROR, cache)
  | some admin =>
      if isBlank adminPasswd || decide (adminPasswd.map aesUtil ≠ admin.password) then
        some (ERROR, cache)
      else
        user.account.bind fun username =>
          match PlainMap.get cache username with
          | none => some (NONE, cache)
          | some old => user.password.map fun password =>
              (SUCCEEDED, cache.put username (user.replacing old (some (encryptBase64 password))))

end UserCacheImpl

/-! ### The book -/

/-- The accounts with their passwords in plain text. -/
abbrev Book := Str → Option MqttAccount

namespace Book

/-- A new account. -/
def enter (book : Book) (admin : MqttAccount) : Book :=
  match admin.account with
  | some account => Function.update book account (some admin)
  | none => book

def strike (book : Book) : Option Str → Book
  | some account => Function.update book account none
  | none => book

/-- A change of an account, and of its password unless the new one is blank. -/
def revise (book : Book) (admin : MqttAccount) (password : Option Str) : Book :=
  match admin.account with
  | some account => Function.update book account ((book account).map fun old =>
      admin.replacing old (if isBlank password then old.password else password))
  | none => book

end Book

/-- The cache has the accounts of the book. -/
def Keeps (encryptBase64 : Str → Str) (cache : AccountCache) (book : Book) : Prop :=
  ∀ account, PlainMap.get cache account = (book account).map (encrypted encryptBase64)

namespace Keeps

variable {encryptBase64 : Str → Str} {cache : AccountCache} {book : Book}

lemma put (h : Keeps encryptBase64 cache book) (account : Str) (admin : MqttAccount) :
    Keeps encryptBase64 (cache.put account (admin.encrypted encryptBase64))
      (Function.update book account (some admin)) := by
  intro key
  rw [PlainMap.get_put, Function.update_apply]
  split_ifs
  · rfl
  · exact h key

lemma remove (h : Keeps encryptBase64 cache book) (account : Str) :
    Keeps encryptBase64 (cache.remove account) (Function.update book account none) := by
  intro key
  rw [PlainMap.get_remove, Function.update_apply]
  split_ifs
  · rfl
  · exact h key

/-- A text is the stored password iff its ciphertext is the one in the cache. -/
lemma password_iff (hinj : Function.Injective encryptBase64) (admin : MqttAccount)
    (password : Option Str) :
    password.map encryptBase64 = (admin.encrypted encryptBase64).password ↔
      password = admin.password :=
  (Option.map_injective hinj).eq_iff

/-- What `get` finds is an account of the book. -/
lemma get_eq_some (h : Keeps encryptBase64 cache book) {account : Option Str}
    {admin : MqttAccount} (hget : AccountCache.get cache account = some admin) :
    isBlank account = false ∧ ∃ name old, account = some name ∧ book name = some old ∧
      admin = old.encrypted encryptBase64 := by
  simp only [AccountCache.get] at hget
  split_ifs at hget with hblank
  obtain ⟨name, rfl, hfind⟩ := Option.bind_eq_some_iff.1 hget
  rw [h name] at hfind
  obtain ⟨old, hold, rfl⟩ := Option.map_eq_some_iff.1 hfind
  exact ⟨by simpa using hblank, name, old, rfl, hold, rfl⟩

end Keeps

/-- An operation either succeeds, and then the cache has the accounts of `book'` and `P` holds, or
it changes nothing. -/
def Makes (encryptBase64 : Str → Str) (cache : AccountCache) (book' : Book) (P : Prop)
    (result : ℤ × AccountCache) : Prop :=
  result.1 = SUCCEEDED ∧ Keeps encryptBase64 result.2 book' ∧ P ∨
    result.1 ≠ SUCCEEDED ∧ result.2 = cache

section Operations

variable {encryptBase64 : Str → Str} {cache : AccountCache} {book book' : Book} {P : Prop}

lemma Makes.error : Makes encryptBase64 cache book' P (ERROR, cache) :=
  Or.inr ⟨show ERROR ≠ SUCCEEDED by decide, rfl⟩

lemma Makes.existed : Makes encryptBase64 cache book' P (EXISTED, cache) :=
  Or.inr ⟨show EXISTED ≠ SUCCEEDED by decide, rfl⟩

lemma Makes.absent : Makes encryptBase64 cache book' P (NONE, cache) :=
  Or.inr ⟨show NONE ≠ SUCCEEDED by decide, rfl⟩

/-- The account that `init` puts into an empty cache. -/
def sysAdmin : MqttAccount :=
  ⟨some SYS_ADMIN_ACCOUNT, some SYS_ADMIN_PASSWORD, none, none, 0, none, 0⟩

lemma keeps_init (encryptBase64 : Str → Str) :
    Keeps encryptBase64 (AdminCacheImpl.init encryptBase64 ∅)
      (Function.update (fun _ => none) SYS_ADMIN_ACCOUNT (some sysAdmin)) := by
  have hempty : Keeps encryptBase64 ∅ fun _ => none :=
    fun account => PlainMap.get_empty account
  exact hempty.put SYS_ADMIN_ACCOUNT sysAdmin

/-- A cache with an account stays as it is. -/
lemma init_eq (h : Keeps encryptBase64 cache book) {account : Str}
    (hsome : book account ≠ none) : AdminCacheImpl.init encryptBase64 cache = cache := by
  obtain ⟨admin, hadmin⟩ := Option.ne_none_iff_exists'.1 hsome
  have hget : PlainMap.get cache account = some (admin.encrypted encryptBase64) := by
    rw [h account, hadmin]
    rfl
  have hmem := (PlainMap.mem_values_iff cache _).2 ⟨account, hget⟩
  exact if_pos (List.length_pos_of_mem hmem)

lemma makes_add (h : Keeps encryptBase64 cache book) (admin : MqttAccount) :
    Makes encryptBase64 cache (book.enter admin) True (add encryptBase64 cache admin) := by
  simp only [add, Book.enter]
  by_cases hblank : (isBlank admin.account || isBlank admin.password) = true
  · rw [if_pos hblank]
    exact Makes.error
  · rw [if_neg hblank]
    cases admin.account with
    | none => exact Makes.error
    | some account =>
        dsimp only
        split_ifs
        · exact Makes.existed
        · exact Or.inl ⟨rfl, h.put account admin, trivial⟩

lemma makes_delete (h : Keeps encryptBase64 cache book) (refused account : Option Str) :
    Makes encryptBase64 cache (book.strike account) (refused ≠ account)
      (AccountCache.delete refused cache account) := by
  simp only [AccountCache.delete]
  by_cases hblank : (isBlank account || decide (refused = account)) = true
  · rw [if_pos hblank]
    exact Makes.error
  · rw [if_neg hblank]
    cases account with
    | none => exact Makes.error
    | some account =>
        dsimp only
        split_ifs
        · refine Or.inl ⟨rfl, h.remove account, fun heq => hblank ?_⟩
          simp [heq]
        · exact Makes.absent

/-- A change of an account that the cache has. -/
lemma Keeps.replace (h : Keeps encryptBase64 cache book) {account : Str} {admin old : MqttAccount}
    (haccount : admin.account = some account) (hold : book account = some old)
    (password : Option Str) :
    Keeps encryptBase64
      (cache.put account (admin.replacing (old.encrypted encryptBase64)
        ((if isBlank password then old.password else password).map encryptBase64)))
      (book.revise admin password) := by
  have hput := h.put account
    (admin.replacing old (if isBlank password then old.password else password))
  simp only [Book.revise, haccount, hold]
  exact hput

lemma makes_update (h : Keeps encryptBase64 cache book) (admin : MqttAccount)
    {result : ℤ × AccountCache} (hresult : update cache admin = some result) :
    Makes encryptBase64 cache (book.revise admin none) True result := by
  simp only [update] at hresult
  obtain ⟨account, haccount, rfl⟩ := Option.map_eq_some_iff.1 hresult
  cases hold : book account with
  | none =>
      rw [h account, hold]
      exact Makes.absent
  | some old =>
      rw [h account, hold]
      exact Or.inl ⟨rfl, h.replace haccount hold none, trivial⟩

/-- The new password of an administrator is taken only with the right old one. -/
lemma makes_updatePasswd (hinj : Function.Injective encryptBase64)
    (h : Keeps encryptBase64 cache book) (admin : MqttAccount) (oldPasswd : Option Str)
    {newPasswd : Option Str} (hnew : isBlank newPasswd = false) :
    Makes encryptBase64 cache (book.revise admin newPasswd)
      (∃ account old, admin.account = some account ∧ book account = some old ∧
        old.password = oldPasswd)
      (AdminCacheImpl.updatePasswd encryptBase64 cache admin oldPasswd newPasswd) := by
  simp only [AdminCacheImpl.updatePasswd]
  by_cases hblank :
      (isBlank oldPasswd || isBlank newPasswd || decide (oldPasswd = newPasswd)) = true
  · rw [if_pos hblank]
    exact Makes.error
  rw [if_neg hblank]
  cases hget : get cache admin.account with
  | none =>
      cases admin.account <;> exact Makes.absent
  | some stored =>
      obtain ⟨-, account, old, haccount, hold, rfl⟩ := h.get_eq_some hget
      rw [haccount]
      dsimp only
      split_ifs with hpasswd
      · exact Makes.error
      · have hright := (Keeps.password_iff hinj old oldPasswd).1 (not_not.1 hpasswd)
        have hreplace := h.replace haccount hold newPasswd
        rw [if_neg (by simp [hnew])] at hreplace
        exact Or.inl ⟨rfl, hreplace, account, old, rfl, hold, hright.symm⟩

/-- The new password of a user is taken only with the right password of the administrator. -/
lemma makes_updatePasswd_user {aesUtil : Str → Str} (hinj : Function.Injective aesUtil)
    {adminCache : AccountCache} {admins : Book} (hadmins : Keeps aesUtil adminCache admins)
    (h : Keeps encryptBase64 cache book) {user : MqttAccount} (hnew : isBlank user.password = false)
    {adminAccount adminPasswd : Option Str} {result : ℤ × AccountCache}
    (hresult : UserCacheImpl.updatePasswd aesUtil encryptBase64 adminCache cache user adminAccount
      adminPasswd = some result) :
    Makes encryptBase64 cache (book.revise user user.password)
      (∃ account admin, adminAccount = some account ∧ admins account = some admin ∧
        admin.password = adminPasswd) result := by
  simp only [UserCacheImpl.updatePasswd] at hresult
  cases hget : get adminCache adminAccount with
  | none =>
      rw [hget] at hresult
      obtain rfl := Option.some.inj hresult
      exact Makes.error
  | some stored =>
      rw [hget] at hresult
      obtain ⟨-, account, admin, haccount, hadmin, rfl⟩ := hadmins.get_eq_some hget
      dsimp only at hresult
      split_ifs at hresult with hpasswd
      · obtain rfl := Option.some.inj hresult
        exact Makes.error
      have hright : adminPasswd = admin.password := by
        refine (Keeps.password_iff hinj admin adminPasswd).1 ?_
        by_contra hne
        simp [hne] at hpasswd
      obtain ⟨username, husername, hupdate⟩ := Option.bind_eq_some_iff.1 hresult
      rw [h username] at hupdate
      cases hold : book username with
      | none =>
          rw [hold] at hupdate
          obtain rfl := Option.some.inj hupdate
          exact Makes.absent
      | some old =>
          rw [hold] at hupdate
          obtain ⟨password, hpassword, rfl⟩ := Option.map_eq_some_iff.1 hupdate
          have hreplace := h.replace husername hold user.password
          rw [if_neg (by simp [hnew]), hpassword] at hreplace
          rw [hpassword]
          exact Or.inl ⟨rfl, hreplace, account, admin, haccount, hadmin, hright.symm⟩

end Operations

end Stuart
