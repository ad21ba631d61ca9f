/-
The admin console of a standalone node: who may change the accounts, and what a password is good for.

A browser session is logged in by the account and the password of an administrator, and only a
session that is logged in gets through to the pages that change accounts; the password of a user is
changed only by a session whose administrator gives the own password once more.  Whoever sees the
requests and their answers can keep a ledger of the accounts, with their passwords in plain text.
After any run of requests the caches hold the accounts of this ledger (`accepts_iff_recorded`): a
user or an administrator is let in with the password that was recorded last, and with no other.
-/
import Stuart.Caches.AccountCache
import Stuart.Caches.RouterCache
import Stuart.Lib.History
import Mathlib.Logic.Equiv.Basic

namespace Stuart

open Lib StringUtils CacheConst AccountCache

namespace WebAdmin

/-- The ciphers of the passwords. -/
structure Ciphers where
  /-- `AesUtil.encryptBase64`, for the administrators -/
  aesUtil : Str → Str
  /-- `Config.getAes().encryptBase64`, for the users -/
  aes : Str → Str

/-- Different texts have different ciphertexts, as a ciphertext can be decrypted. -/
structure Ciphers.Injective (k : Ciphers) : Prop where
  aesUtil : Function.Injective k.aesUtil
  aes : Function.Injective k.aes

/-- The accounts in the cache service. -/
structure AccountService where
  /-- whether a node is in local authentication mode -/
  nodeCache : PlainMap UUID Bool
  adminCache : AccountCache
  userCache : AccountCache

namespace AccountService

def isLocalAuth (s : AccountService) : Option UUID → Bool
  | none => false
  | some nodeId => (s.nodeCache.get nodeId).getD false

def addUser (k : Ciphers) (s : AccountService) (user : MqttAccount) : ℤ × AccountService :=
  let result := add k.aes s.userCache user
  (result.1, { s with userCache := result.2 })

def deleteUser (s : AccountService) (username : Option Str) : ℤ × AccountService :=
  let result := UserCacheImpl.delete s.userCache username
  (result.1, { s with userCache := result.2 })

def updateUser (k : Ciphers) (s : AccountService) (user : MqttAccount)
    (adminAccount adminPasswd : Option Str) : Option (ℤ × AccountService) :=
  let result := if isBlank user.password then update s.userCache user
    else UserCacheImpl.updatePasswd k.aesUtil k.aes s.adminCache s.userCache user adminAccount
      adminPasswd
  result.map fun result => (result.1, { s with userCache := result.2 })

def addAdmin (k : Ciphers) (s : AccountService) (admin : MqttAccount) : ℤ × AccountService :=
  let result := add k.aesUtil s.adminCache admin
  (result.1, { s with adminCache := result.2 })

def deleteAdmin (s : AccountService) (account : Option Str) : ℤ × AccountService :=
  let result := AdminCacheImpl.delete s.adminCache account
  (result.1, { s with adminCache := result.2 })

def updateAdmin (k : Ciphers) (s : AccountService) (admin : MqttAccount)
    (oldPasswd newPasswd : Option Str) : Option (ℤ × AccountService) :=
  let result := if isBlank oldPasswd || isBlank newPasswd then update s.adminCache admin
    else some (AdminCacheImpl.updatePasswd k.aesUtil s.adminCache admin oldPasswd newPasswd)
  result.map fun result => (result.1, { s with adminCache := result.2 })

def login (k : Ciphers) (s : AccountService) (account password : Option Str) : Bool :=
  if isBlank account || isBlank password then false
  else match get s.adminCache account with
    | none => false
    | some compared => decide (password.map k.aesUtil = compared.password)

end AccountService

/-- `LocalAuthServiceImpl.auth`: what the handler is called with. -/
def LocalAuthService.auth (k : Ciphers) (s : AccountService) (username password : Option Str) :
    Bool :=
  if isBlank username || isBlank password then false
  else match get s.userCache username with
    | none => false
    | some user => decide (password.map k.aes = user.password)

/-- `LocalAuthImpl.authenticate`: whether the future succeeds. -/
def LocalAuth.authenticate (k : Ciphers) (s : AccountService) (username password : Option Str) :
    Bool :=
  if username = none then false
  else if password = none then false
  else s.login k username password

/-- The members of the request bodies. -/
inductive Field where
  | username
  | password
  | desc
  | userPasswd
  | adminPasswd
  | account
  | oldPasswd
  | newPasswd
deriving DecidableEq

/-- `getString` of the members of an object. -/
abbrev JsonObject := Field → Option Str

inductive Body where
  | empty
  /-- decoding it throws -/
  | malformed
  | object (json : JsonObject)

/-- The pages under `/sys/user` and `/sys/admin`, but for the lists. -/
inductive Page where
  | addUser
  | deleteUser
  | updateUser
  | addAdmin
  | deleteAdmin
  | updateAdmin
deriving DecidableEq

/-- The page is for local authentication only. -/
def Page.isUser : Page → Bool
  | .addUser | .deleteUser | .updateUser => true
  | .addAdmin | .deleteAdmin | .updateAdmin => false

/-- The header with the node id of a request. -/
inductive NodeIdHeader where
  | blank
  | uuid (nodeId : UUID)
  /-- parsing it throws -/
  | invalid

/-- `getRequestNodeId`; `none` for the exception. -/
def getRequestNodeId : NodeIdHeader → Option (Option UUID)
  | .blank => some none
  | .uuid nodeId => some (some nodeId)
  | .invalid => none

inductive Request where
  | login (body : Body)
  | logout
  | sys (page : Page) (header : NodeIdHeader) (body : Body)

inductive Response where
  | login (result : Bool)
  | redirect
  | result (code : ℤ)
  | decodeError
  | notLocalAuthMode
  /-- 401 -/
  | unauthorized
  /-- 500, an exception that nobody catches -/
  | failed
deriving DecidableEq

inductive Action where
  /-- a request of a browser session, and the time -/
  | request (session : ℕ) (now : ℤ) (request : Request)
  /-- a browser session runs out -/
  | timeout (session : ℕ)
  /-- the node starts again -/
  | restart (nodeId : UUID) (localAuth : Bool)

/-- The user that `addUser` makes of a body. -/
def newUser (account : Option Str) (now : ℤ) (json : JsonObject) : MqttAccount :=
  ⟨json .username, json .password, json .desc, account, now, none, 0⟩

/-- The user that `updateUser` makes of a body. -/
def changedUser (account : Option Str) (now : ℤ) (json : JsonObject) : MqttAccount :=
  ⟨json .username, json .userPasswd, json .desc, none, 0, account, now⟩

/-- The administrator that `addAdmin` makes of a body. -/
def newAdmin (account : Option Str) (now : ℤ) (json : JsonObject) : MqttAccount :=
  ⟨json .account, json .password, json .desc, account, now, none, 0⟩

/-- The administrator that `updateAdmin` makes of a body. -/
def changedAdmin (account : Option Str) (now : ℤ) (json : JsonObject) : MqttAccount :=
  ⟨json .account, none, json .desc, none, 0, account, now⟩

/-- What the handler of a page does with an object; `account` is the session account. -/
def manage (k : Ciphers) (s : AccountService) (account : Option Str) (now : ℤ) (json : JsonObject) :
    Page → Option (ℤ × AccountService)
  | .addUser => some (s.addUser k (newUser account now json))
  | .deleteUser => some (s.deleteUser (json .username))
  | .updateUser =>
      s.updateUser k (changedUser account now json) (some (account.getD [])) (json .adminPasswd)
  | .addAdmin => some (s.addAdmin k (newAdmin account now json))
  | .deleteAdmin => some (s.deleteAdmin (json .account))
  | .updateAdmin =>
      s.updateAdmin k (changedAdmin account now json) (json .oldPasswd) (json .newPasswd)

/-- The handler of a page: it throws for an empty body, where there is no object. -/
def sys (k : Ciphers) (s : AccountService) (account : Option Str) (now : ℤ) (page : Page)
    (header : NodeIdHeader) (body : Body) : Response × AccountService :=
  -- the pages of the administrators do not look at the header
  match if page.isUser then getRequestNodeId header else some none with
  | none => (.failed, s)
  | some nodeId =>
      match body with
      | .malformed => (.decodeError, s)
      | .empty => (if page.isUser && !s.isLocalAuth nodeId then .notLocalAuthMode else .failed, s)
      | .object json =>
          if page.isUser && !s.isLocalAuth nodeId then (.notLocalAuthMode, s)
          else match manage k s account now json page with
            | some (code, s') => (.result code, s')
            | none => (.failed, s)

/-- The console of a node: the cache service, and the account of each browser session that is
logged in. -/
structure Console where
  service : AccountService
  sessions : PlainMap ℕ Str

namespace Console

/-- `WebAdminVerticle.login`. -/
def login (k : Ciphers) (c : Console) (session : ℕ) : Body → Response × Console
  | .malformed => (.login false, c)
  | .empty => (.failed, c)
  | .object json =>
      if LocalAuth.authenticate k c.service (json .username) (json .password) then
        (.login true,
          { c with sessions := c.sessions.put session ((json .username).getD []) })
      else (.login false, c)

/-- A request; the handler of the pages under `/sys` lets a session through that is logged in. -/
def request (k : Ciphers) (c : Console) (session : ℕ) (now : ℤ) : Request → Response × Console
  | .login body => c.login k session body
  | .logout => (.redirect, { c with sessions := c.sessions.remove session })
  | .sys page header body =>
      match c.sessions.get session with
      | none => (.unauthorized, c)
      | some account =>
          let result := WebAdmin.sys k c.service (some account) now page header body
          (result.1, { c with service := result.2 })

/-- When the node starts again the caches of the accounts are kept, the browser sessions are not,
and `initNode` leaves the record of this start only. -/
def perform (k : Ciphers) (c : Console) : Action → Option Response × Console
  | .request session now request =>
      let result := c.request k session now request
      (some result.1, result.2)
  | .timeout session => (none, { c with sessions := c.sessions.remove session })
  | .restart nodeId localAuth => (none,
      { service :=
          { c.service with
            nodeCache := (∅ : PlainMap UUID Bool).put nodeId localAuth
            adminCache := AdminCacheImpl.init k.aesUtil c.service.adminCache }
        sessions := ∅ })

/-- The console of a node that has never run before. -/
def start (k : Ciphers) (nodeCache : PlainMap UUID Bool) : Console :=
  ⟨⟨nodeCache, AdminCacheImpl.init k.aesUtil ∅, ∅⟩, ∅⟩

end Console

/-! ### The ledger -/

/-- What an observer of the requests and their answers knows: the accounts that the browser sessions
are logged in with, the administrators and the users. -/
structure AccountLedger where
  sessions : ℕ → Option Str
  admins : Book
  users : Book

namespace AccountLedger

def start : AccountLedger :=
  ⟨fun _ => none, Function.update (fun _ => none) SYS_ADMIN_ACCOUNT (some sysAdmin), fun _ => none⟩

/-- A page was told that it succeeded. -/
def manage (l : AccountLedger) (account : Option Str) (now : ℤ) (json : JsonObject) :
    Page → AccountLedger
  | .addUser => { l with users := l.users.enter (newUser account now json) }
  | .deleteUser => { l with users := l.users.strike (json .username) }
  | .updateUser =>
      { l with users := l.users.revise (changedUser account now json) (json .userPasswd) }
  | .addAdmin => { l with admins := l.admins.enter (newAdmin account now json) }
  | .deleteAdmin => { l with admins := l.admins.strike (json .account) }
  | .updateAdmin =>
      { l with
        admins := l.admins.revise (changedAdmin account now json)
          (if isBlank (json .oldPasswd) then none else json .newPasswd) }

def record (l : AccountLedger) : Action × Option Response → AccountLedger
  | (.request session _ (.login (.object json)), some (.login true)) =>
      { l with sessions := Function.update l.sessions session (json .username) }
  | (.request session _ .logout, _) =>
      { l with sessions := Function.update l.sessions session none }
  | (.request session now (.sys page _ (.object json)), some (.result code)) =>
      if code = SUCCEEDED then l.manage (l.sessions session) now json page else l
  | (.timeout session, _) => { l with sessions := Function.update l.sessions session none }
  | (.restart _ _, _) => { l with sessions := fun _ => none }
  | _ => l

end AccountLedger

/-- The name and the password are those of an account of the book. -/
def Accepts (book : Book) (name password : Option Str) : Prop :=
  isBlank name = false ∧ isBlank password = false ∧
    ∃ account admin, name = some account ∧ book account = some admin ∧ admin.password = password

/-- What the page needs to know to succeed, beside the session: who sets the password of a user
gives the own one, who sets the own one gives the old one.  The system administrator stays. -/
def Right (l : AccountLedger) (account : Option Str) (json : JsonObject) : Page → Prop
  | .updateUser => isBlank (json .userPasswd) = false →
      ∃ name admin, account = some name ∧ l.admins name = some admin ∧
        admin.password = json .adminPasswd
  | .updateAdmin => isBlank (json .oldPasswd) = false → isBlank (json .newPasswd) = false →
      ∃ name admin, json .account = some name ∧ l.admins name = some admin ∧
        admin.password = json .oldPasswd
  | .deleteAdmin => json .account ≠ some SYS_ADMIN_ACCOUNT
  | .addUser | .deleteUser | .addAdmin => True

/-- What the ledger says about an answer.  A login succeeds with the password of an administrator
only, and a page does something for a session that is logged in only. -/
def Authorised (l : AccountLedger) : Action × Option Response → Prop
  | (.request _ _ (.login (.object json)), response) =>
      response = some (.login true) ↔ Accepts l.admins (json .username) (json .password)
  | (.request session _ (.sys page _ body), response) =>
      if l.sessions session = none then response = some .unauthorized
      else response = some (.result SUCCEEDED) →
        ∃ json, body = .object json ∧ Right l (l.sessions session) json page
  | _ => True

/-! ### The console keeps the accounts of the ledger -/

structure Service (k : Ciphers) (s : AccountService) (admins users : Book) : Prop where
  adminCache : Keeps k.aesUtil s.adminCache admins
  userCache : Keeps k.aes s.userCache users
  sysAdmin : admins SYS_ADMIN_ACCOUNT ≠ none

structure Matches (k : Ciphers) (c : Console) (l : AccountLedger) : Prop where
  sessions : ∀ session, c.sessions.get session = l.sessions session
  service : Service k c.service l.admins l.users

variable {k : Ciphers} {s : AccountService} {c : Console} {l : AccountLedger}
  {book admins users : Book}

lemma enter_ne_none (admin : MqttAccount) {name : Str} (h : book name ≠ none) :
    book.enter admin name ≠ none := by
  simp only [Book.enter]
  cases admin.account with
  | none => exact h
  | some account =>
      show Function.update book account (some admin) name ≠ none
      rw [Function.update_apply]
      split_ifs <;> simp [h]

lemma revise_ne_none (admin : MqttAccount) (password : Option Str) {name : Str}
    (h : book name ≠ none) : book.revise admin password name ≠ none := by
  simp only [Book.revise]
  cases admin.account with
  | none => exact h
  | some account =>
      dsimp only
      by_cases heq : name = account
      · obtain rfl := heq
        rw [Function.update_self]
        simpa using h
      · rw [Function.update_of_ne heq]
        exact h

lemma revise_of_isBlank (book : Book) (admin : MqttAccount) {password : Option Str}
    (h : isBlank password = true) : book.revise admin password = book.revise admin none := by
  simp only [Book.revise, h, show isBlank none = true from rfl, if_true]

lemma strike_ne_none {account : Option Str} {name : Str} (h : book name ≠ none)
    (hne : account ≠ some name) : book.strike account name ≠ none := by
  cases account with
  | none => exact h
  | some account =>
      show Function.update book account none name ≠ none
      rw [Function.update_of_ne (fun heq => hne (congrArg some heq.symm))]
      exact h

/-- A password is let in iff it is the one of the book. -/
lemma accepts_iff {encryptBase64 : Str → Str} (hinj : Function.Injective encryptBase64)
    {cache : AccountCache} (h : Keeps encryptBase64 cache book) (name password : Option Str) :
    (if isBlank name || isBlank password then false
      else match get cache name with
        | none => false
        | some compared => decide (password.map encryptBase64 = compared.password)) = true ↔
      Accepts book name password := by
  simp only [Accepts]
  by_cases hblank : (isBlank name || isBlank password) = true
  · rw [if_pos hblank]
    refine iff_of_false Bool.false_ne_true ?_
    rintro ⟨hname, hpassword, -⟩
    simp [hname, hpassword] at hblank
  obtain ⟨hname, hpassword⟩ : isBlank name = false ∧ isBlank password = false := by
    simpa using hblank
  rw [if_neg hblank]
  simp only [hname, hpassword, true_and]
  cases hget : get cache name with
  | none =>
      refine iff_of_false Bool.false_ne_true ?_
      rintro ⟨account, admin, rfl, hadmin, -⟩
      simp only [AccountCache.get, hname, Bool.false_eq_true, if_false, Option.bind_some,
        h account, hadmin] at hget
      cases hget
  | some compared =>
      obtain ⟨-, account, admin, rfl, hadmin, rfl⟩ := h.get_eq_some hget
      rw [decide_eq_true_iff, Keeps.password_iff hinj]
      constructor
      · rintro rfl
        exact ⟨account, admin, rfl, hadmin, rfl⟩
      · rintro ⟨account', admin', haccount, hadmin', rfl⟩
        obtain rfl := Option.some.inj haccount
        obtain rfl := Option.some.inj (hadmin.symm.trans hadmin')
        rfl

lemma auth_iff (hk : k.Injective) (h : Service k s admins users) (username password : Option Str) :
    LocalAuthService.auth k s username password = true ↔ Accepts users username password :=
  accepts_iff hk.aes h.userCache username password

lemma authenticate_iff (hk : k.Injective) (h : Service k s admins users)
    (username password : Option Str) :
    LocalAuth.authenticate k s username password = true ↔ Accepts admins username password := by
  rw [← accepts_iff hk.aesUtil h.adminCache]
  simp only [LocalAuth.authenticate, AccountService.login]
  cases username with
  | none => simp [isBlank]
  | some username =>
      cases password with
      | none => simp [isBlank]
      | some password => simp

/-- An operation on the users. -/
lemma Service.users_made (h : Service k s admins users) {book' : Book} {P : Prop}
    {result : ℤ × AccountCache} (hmakes : Makes k.aes s.userCache book' P result) :
    result.1 = SUCCEEDED ∧ Service k { s with userCache := result.2 } admins book' ∧ P ∨
      result.1 ≠ SUCCEEDED ∧ { s with userCache := result.2 } = s := by
  rcases hmakes with ⟨hcode, hkeeps, hP⟩ | ⟨hcode, heq⟩
  · exact Or.inl ⟨hcode, ⟨h.adminCache, hkeeps, h.sysAdmin⟩, hP⟩
  · exact Or.inr ⟨hcode, by rw [heq]⟩

/-- An operation on the administrators, which keeps the system administrator. -/
lemma Service.admins_made (h : Service k s admins users) {book' : Book} {P : Prop}
    {result : ℤ × AccountCache} (hmakes : Makes k.aesUtil s.adminCache book' P result)
    (hsys : P → book' SYS_ADMIN_ACCOUNT ≠ none) :
    result.1 = SUCCEEDED ∧ Service k { s with adminCache := result.2 } book' users ∧ P ∨
      result.1 ≠ SUCCEEDED ∧ { s with adminCache := result.2 } = s := by
  rcases hmakes with ⟨hcode, hkeeps, hP⟩ | ⟨hcode, heq⟩
  · exact Or.inl ⟨hcode, ⟨hkeeps, h.userCache, hsys hP⟩, hP⟩
  · exact Or.inr ⟨hcode, by rw [heq]⟩

/-- A page that succeeds does to the caches what the ledger records. -/
lemma service_manage (hk : k.Injective) (h : Service k s l.admins l.users) {account : Str} {now : ℤ}
    {json : JsonObject} {page : Page} {code : ℤ} {s' : AccountService}
    (hmanage : manage k s (some account) now json page = some (code, s')) :
    code = SUCCEEDED ∧ Service k s' (l.manage (some account) now json page).admins
          (l.manage (some account) now json page).users ∧ Right l (some account) json page ∨
      code ≠ SUCCEEDED ∧ s' = s := by
  cases page with
  | addUser =>
      obtain ⟨rfl, rfl⟩ := Prod.mk.inj (Option.some.inj hmanage)
      exact h.users_made (makes_add h.userCache _)
  | deleteUser =>
      obtain ⟨rfl, rfl⟩ := Prod.mk.inj (Option.some.inj hmanage)
      exact (h.users_made (makes_delete h.userCache none _)).imp_left fun hmade =>
        ⟨hmade.1, hmade.2.1, trivial⟩
  | updateUser =>
      obtain ⟨result, hresult, heq⟩ := Option.map_eq_some_iff.1 hmanage
      obtain ⟨rfl, rfl⟩ := Prod.mk.inj heq
      by_cases hblank : isBlank (json .userPasswd) = true
      · rw [if_pos (show isBlank (changedUser (some account) now json).password = true from hblank)]
          at hresult
        have hmakes := makes_update h.userCache _ hresult
        rw [← revise_of_isBlank l.users _ hblank] at hmakes
        refine (h.users_made hmakes).imp_left fun hmade => ⟨hmade.1, hmade.2.1, fun hnew => ?_⟩
        rw [hblank] at hnew
        cases hnew
      · rw [if_neg
          (show ¬isBlank (changedUser (some account) now json).password = true from hblank)]
          at hresult
        have hmakes := makes_updatePasswd_user hk.aesUtil h.adminCache h.userCache
          (Bool.eq_false_iff.2 hblank) hresult
        exact (h.users_made hmakes).imp_left fun hmade => ⟨hmade.1, hmade.2.1, fun _ => hmade.2.2⟩
  | addAdmin =>
      obtain ⟨rfl, rfl⟩ := Prod.mk.inj (Option.some.inj hmanage)
      exact h.admins_made (makes_add h.adminCache _) fun _ => enter_ne_none _ h.sysAdmin
  | deleteAdmin =>
      obtain ⟨rfl, rfl⟩ := Prod.mk.inj (Option.some.inj hmanage)
      refine (h.admins_made (makes_delete h.adminCache (some SYS_ADMIN_ACCOUNT) _) fun hne =>
        strike_ne_none h.sysAdmin hne.symm).imp_left fun hmade => ?_
      exact ⟨hmade.1, hmade.2.1, hmade.2.2.symm⟩
  | updateAdmin =>
      obtain ⟨result, hresult, heq⟩ := Option.map_eq_some_iff.1 hmanage
      obtain ⟨rfl, rfl⟩ := Prod.mk.inj heq
      have hsys : ∀ password, l.admins.revise (changedAdmin (some account) now json) password
          SYS_ADMIN_ACCOUNT ≠ none := fun password => revise_ne_none _ password h.sysAdmin
      by_cases hblank : (isBlank (json .oldPasswd) || isBlank (json .newPasswd)) = true
      · rw [if_pos hblank] at hresult
        have hnew :
            isBlank (if isBlank (json .oldPasswd) then none else json .newPasswd) = true := by
          split_ifs with hold
          · rfl
          · simpa [hold] using hblank
        have hmakes := makes_update h.adminCache _ hresult
        rw [← revise_of_isBlank l.admins _ hnew] at hmakes
        refine (h.admins_made hmakes fun _ => hsys _).imp_left fun hmade =>
          ⟨hmade.1, hmade.2.1, fun hold hnew => ?_⟩
        simp [hold, hnew] at hblank
      · rw [if_neg hblank] at hresult
        obtain rfl := Option.some.inj hresult
        obtain ⟨hold, hnew⟩ :
            isBlank (json .oldPasswd) = false ∧ isBlank (json .newPasswd) = false := by
          simpa using hblank
        have hmakes := makes_updatePasswd hk.aesUtil h.adminCache
          (changedAdmin (some account) now json) (json .oldPasswd) hnew
        have hbook : l.admins.revise (changedAdmin (some account) now json) (json .newPasswd) =
            l.admins.revise (changedAdmin (some account) now json)
              (if isBlank (json .oldPasswd) then none else json .newPasswd) := by
          rw [hold]
          rfl
        rw [hbook] at hmakes
        exact (h.admins_made hmakes fun _ => hsys _).imp_left fun hmade =>
          ⟨hmade.1, hmade.2.1, fun _ _ => hmade.2.2⟩

/-- A login succeeds with a password of the ledger, and then the session has its account. -/
lemma matches_login (hk : k.Injective) (h : Matches k c l) (session : ℕ) (now : ℤ) (body : Body) :
    Matches k (c.login k session body).2
        (l.record (.request session now (.login body), some (c.login k session body).1)) ∧
      Authorised l (.request session now (.login body), some (c.login k session body).1) := by
  cases body with
  | empty => exact ⟨h, trivial⟩
  | malformed => exact ⟨h, trivial⟩
  | object json =>
      have hiff := authenticate_iff hk h.service (json .username) (json .password)
      simp only [Console.login]
      split_ifs with hlogin
      · obtain ⟨-, -, account, -, haccount, -⟩ := hiff.1 hlogin
        refine ⟨⟨fun other => ?_, h.service⟩, iff_of_true rfl (hiff.1 hlogin)⟩
        show (c.sessions.put session ((json .username).getD [])).get other =
          Function.update l.sessions session (json .username) other
        rw [PlainMap.get_put, Function.update_apply, haccount]
        split_ifs
        · rfl
        · exact h.sessions other
      · exact ⟨h, iff_of_false (by simp) fun haccepts => hlogin (hiff.2 haccepts)⟩

@[simp] lemma sessions_manage (account : Option Str) (now : ℤ) (json : JsonObject) (page : Page) :
    (l.manage account now json page).sessions = l.sessions := by
  cases page <;> rfl

/-- A page is open to a session that is logged in only. -/
lemma matches_sys (hk : k.Injective) (h : Matches k c l) (session : ℕ) (now : ℤ) (page : Page)
    (header : NodeIdHeader) (body : Body) :
    Matches k (c.request k session now (.sys page header body)).2
        (l.record (.request session now (.sys page header body),
          some (c.request k session now (.sys page header body)).1)) ∧
      Authorised l (.request session now (.sys page header body),
        some (c.request k session now (.sys page header body)).1) := by
  simp only [Console.request, Authorised]
  cases hsession : c.sessions.get session with
  | none =>
      have hnone := (h.sessions session).symm.trans hsession
      rw [if_pos hnone]
      exact ⟨by cases body <;> exact h, rfl⟩
  | some account =>
      have hsome := (h.sessions session).symm.trans hsession
      rw [hsome, if_neg (by simp)]
      simp only [WebAdmin.sys]
      cases (if page.isUser then getRequestNodeId header else some none) with
      | none => exact ⟨by cases body <;> exact h, fun heq => nomatch heq⟩
      | some nodeId =>
          cases body with
          | malformed => exact ⟨h, fun heq => nomatch heq⟩
          | empty =>
              dsimp only
              split_ifs
              · exact ⟨h, fun heq => nomatch heq⟩
              · exact ⟨h, fun heq => nomatch heq⟩
          | object json =>
              dsimp only
              by_cases hlocal : (page.isUser && !c.service.isLocalAuth nodeId) = true
              · rw [if_pos hlocal]
                exact ⟨h, fun heq => nomatch heq⟩
              rw [if_neg hlocal]
              cases hmanage : manage k c.service (some account) now json page with
              | none => exact ⟨h, fun heq => nomatch heq⟩
              | some result =>
                  obtain ⟨code, s'⟩ := result
                  simp only [AccountLedger.record, hsome]
                  rcases service_manage hk h.service hmanage with
                    ⟨rfl, hservice, hright⟩ | ⟨hcode, rfl⟩
                  · rw [if_pos rfl]
                    refine ⟨⟨fun other => ?_, hservice⟩, fun _ => ⟨json, rfl, hright⟩⟩
                    rw [sessions_manage]
                    exact h.sessions other
                  · rw [if_neg hcode]
                    refine ⟨h, fun heq => absurd ?_ hcode⟩
                    exact Response.result.inj (Option.some.inj heq)

/-- The step of the console, as the ledger records it. -/
lemma matches_perform (hk : k.Injective) (h : Matches k c l) (action : Action) :
    Matches k (c.perform k action).2 (l.record (action, (c.perform k action).1)) ∧
      Authorised l (action, (c.perform k action).1) := by
  have hleave : ∀ session other, (c.sessions.remove session).get other =
      Function.update l.sessions session none other := by
    intro session other
    rw [PlainMap.get_remove, Function.update_apply]
    split_ifs
    · rfl
    · exact h.sessions other
  cases action with
  | request session now request =>
      cases request with
      | login body => exact matches_login hk h session now body
      | logout => exact ⟨⟨hleave session, h.service⟩, trivial⟩
      | sys page header body => exact matches_sys hk h session now page header body
  | timeout session => exact ⟨⟨hleave session, h.service⟩, trivial⟩
  | restart nodeId localAuth =>
      have hinit := init_eq h.service.adminCache h.service.sysAdmin
      refine ⟨⟨fun _ => PlainMap.get_empty _, ?_, h.service.userCache, h.service.sysAdmin⟩, trivial⟩
      show Keeps k.aesUtil (AdminCacheImpl.init k.aesUtil c.service.adminCache) l.admins
      rw [hinit]
      exact h.service.adminCache

lemma matches_start (k : Ciphers) (nodeCache : PlainMap UUID Bool) :
    Matches k (Console.start k nodeCache) AccountLedger.start :=
  ⟨fun _ => PlainMap.get_empty _, keeps_init k.aesUtil, fun _ => PlainMap.get_empty _,
    by simp [AccountLedger.start]⟩

/-! ### Whole runs -/

/-- The console after a run from the first start. -/
def consoleAfter (k : Ciphers) (nodeCache : PlainMap UUID Bool) (actions : List Action) : Console :=
  after (Console.perform k) (Console.start k nodeCache) actions

/-- What was asked and answered in a run from the first start. -/
def historyOf (k : Ciphers) (nodeCache : PlainMap UUID Bool) (actions : List Action) :
    List (Action × Option Response) :=
  history (Console.perform k) (Console.start k nodeCache) actions

/-- The ledger that is kept of a history. -/
def AccountLedger.ofHistory (log : List (Action × Option Response)) : AccountLedger :=
  log.foldl AccountLedger.record AccountLedger.start

lemma matches_run (hk : k.Injective) (nodeCache : PlainMap UUID Bool) (actions : List Action) :
    Matches k (consoleAfter k nodeCache actions)
        (AccountLedger.ofHistory (historyOf k nodeCache actions)) ∧
      Allowed (fun before event => Authorised (AccountLedger.ofHistory before) event)
        (historyOf k nodeCache actions) :=
  recorded_run AccountLedger.record (Matches k) Authorised
    (fun _ _ action h => (matches_perform hk h action).1)
    (fun _ _ action h => (matches_perform hk h action).2) (matches_start k nodeCache) actions

/-- After any requests of any browser sessions, of whoever is logged in, and any restarts, the
caches hold the accounts that the answered requests have recorded, with the creation data of the
request that added them; a user and an administrator are let in with the password recorded last and
with no other. -/
theorem accepts_iff_recorded (hk : k.Injective) (nodeCache : PlainMap UUID Bool)
    (actions : List Action) (name password : Option Str) :
    let s := (consoleAfter k nodeCache actions).service
    let l := AccountLedger.ofHistory (historyOf k nodeCache actions)
    Keeps k.aesUtil s.adminCache l.admins ∧ Keeps k.aes s.userCache l.users ∧
      (LocalAuthService.auth k s name password = true ↔ Accepts l.users name password) ∧
      (LocalAuth.authenticate k s name password = true ↔ Accepts l.admins name password) := by
  obtain ⟨h, -⟩ := matches_run hk nodeCache actions
  exact ⟨h.service.adminCache, h.service.userCache, auth_iff hk h.service name password,
    authenticate_iff hk h.service name password⟩

/-- The ciphertexts of two passwords under the key that is used by default. -/
def sampleCiphers : Ciphers :=
  let aes := (Equiv.swap SYS_ADMIN_PASSWORD "F+mVHBip6WmTm9kA1oLoGQ==".toList).trans
    (Equiv.swap ['p', 'w'] "lkAYuVw7tD/nTPMrKkZuMw==".toList)
  ⟨aes, aes⟩

lemma sampleCiphers_injective : sampleCiphers.Injective :=
  ⟨Equiv.injective _, Equiv.injective _⟩

/-- A login of the system administrator, who adds a user. -/
def sampleActions : List Action :=
  [.request 0 1 (.login (.object fun
    | .username => some SYS_ADMIN_ACCOUNT
    | .password => some SYS_ADMIN_PASSWORD
    | _ => none)),
   .request 0 2 (.sys .addUser (.uuid 7) (.object fun
    | .username => some ['u']
    | .password => some ['p', 'w']
    | _ => none))]

theorem accepts_iff_recorded_sample :
    LocalAuthService.auth sampleCiphers
      (consoleAfter sampleCiphers ((∅ : PlainMap UUID Bool).put 7 true) sampleActions).service
      (some ['u']) (some ['p', 'w']) = true :=
  (accepts_iff_recorded sampleCiphers_injective ((∅ : PlainMap UUID Bool).put 7 true) sampleActions
    (some ['u']) (some ['p', 'w'])).2.2.1.2
      ⟨by decide, by decide, ['u'], newUser (some SYS_ADMIN_ACCOUNT) 2 fun
        | .username => some ['u']
        | .password => some ['p', 'w']
        | _ => none, rfl, by decide +kernel, rfl⟩

/-- In every run each answer is one that the answers before it allow: a login succeeds iff account
and password are those of an administrator at that time, no page does anything for a session that
is not logged in, a password is replaced only with the password of the administrator, and the
system administrator is there for ever. -/
theorem answers_authorised (hk : k.Injective) (nodeCache : PlainMap UUID Bool)
    (actions : List Action) :
    Allowed (fun before event => Authorised (AccountLedger.ofHistory before) event)
        (historyOf k nodeCache actions) ∧
      (AccountLedger.ofHistory (historyOf k nodeCache actions)).admins SYS_ADMIN_ACCOUNT ≠
        none := by
  obtain ⟨h, hallowed⟩ := matches_run hk nodeCache actions
  exact ⟨hallowed, h.service.sysAdmin⟩

theorem answers_authorised_sample :
    (AccountLedger.ofHistory (historyOf sampleCiphers ∅ sampleActions)).admins SYS_ADMIN_ACCOUNT ≠
      none :=
  (answers_authorised sampleCiphers_injective ∅ sampleActions).2

/-! ### Without a password -/

/-- Nobody is logged in, and the caches are these. -/
structure Locked (adminCache userCache : AccountCache) (c : Console) : Prop where
  sessions : ∀ session, c.sessions.get session = none
  admins : c.service.adminCache = adminCache
  users : c.service.userCache = userCache

lemma locked_perform {adminCache userCache : AccountCache} (hk : k.Injective)
    (hadmins : Keeps k.aesUtil adminCache admins) (hsys : admins SYS_ADMIN_ACCOUNT ≠ none)
    (h : Locked adminCache userCache c) {action : Action}
    (hlogin : ∀ session now json, action = .request session now (.login (.object json)) →
      ¬Accepts admins (json .username) (json .password)) :
    Locked adminCache userCache (c.perform k action).2 := by
  have hleave : ∀ session other, (c.sessions.remove session).get other = none := by
    intro session other
    rw [PlainMap.get_remove]
    split_ifs
    · rfl
    · exact h.sessions other
  cases action with
  | request session now request =>
      cases request with
      | login body =>
          cases body with
          | empty => exact h
          | malformed => exact h
          | object json =>
              have hservice : Service k ⟨c.service.nodeCache, adminCache, ∅⟩ admins fun _ => none :=
                ⟨hadmins, fun _ => PlainMap.get_empty _, hsys⟩
              have hrefused : LocalAuth.authenticate k c.service (json .username) (json .password) =
                  false := by
                have hiff := authenticate_iff hk hservice (json .username) (json .password)
                simp only [LocalAuth.authenticate, AccountService.login] at hiff ⊢
                rw [h.admins]
                exact Bool.eq_false_iff.2 fun htrue => hlogin session now json rfl (hiff.1 htrue)
              simp only [Console.perform, Console.request, Console.login, hrefused,
                Bool.false_eq_true, if_false]
              exact h
      | logout => exact ⟨hleave session, h.admins, h.users⟩
      | sys page header body =>
          simp only [Console.perform, Console.request, h.sessions session]
          exact h
  | timeout session => exact ⟨hleave session, h.admins, h.users⟩
  | restart nodeId localAuth =>
      refine ⟨fun _ => PlainMap.get_empty _, ?_, h.users⟩
      show AdminCacheImpl.init k.aesUtil c.service.adminCache = adminCache
      rw [h.admins]
      exact init_eq hadmins hsys

/-- While nobody is logged in, and nobody tries an account with its password, no request changes an
account, and nobody gets in. -/
theorem unchanged_without_password (hk : k.Injective) (nodeCache : PlainMap UUID Bool)
    (actions more : List Action)
    (hout : ∀ session, (consoleAfter k nodeCache actions).sessions.get session = none)
    (hlogin : ∀ session now json, .request session now (.login (.object json)) ∈ more →
      ¬Accepts (AccountLedger.ofHistory (historyOf k nodeCache actions)).admins (json .username)
        (json .password)) :
    Locked (consoleAfter k nodeCache actions).service.adminCache
      (consoleAfter k nodeCache actions).service.userCache
      (consoleAfter k nodeCache (actions ++ more)) := by
  obtain ⟨h, -⟩ := matches_run hk nodeCache actions
  have happend : consoleAfter k nodeCache (actions ++ more) =
      after (Console.perform k) (consoleAfter k nodeCache actions) more := after_append _ _ _
  rw [happend]
  refine invariant_after (fun c action hmem hc => ?_) ⟨hout, rfl, rfl⟩
  refine locked_perform hk h.service.adminCache h.service.sysAdmin hc fun session now json heq => ?_
  exact hlogin session now json (heq ▸ hmem)

/-- A login with the password of a user instead of that of the system administrator. -/
def sampleWrong : JsonObject
  | .username => some SYS_ADMIN_ACCOUNT
  | .password => some ['p', 'w']
  | _ => none

theorem unchanged_without_password_sample :
    Locked
      (consoleAfter sampleCiphers ∅ (sampleActions ++ [.restart 7 true])).service.adminCache
      (consoleAfter sampleCiphers ∅ (sampleActions ++ [.restart 7 true])).service.userCache
      (consoleAfter sampleCiphers ∅ ((sampleActions ++ [.restart 7 true]) ++
        [.request 0 1 (.login (.object sampleWrong))])) := by
  refine unchanged_without_password sampleCiphers_injective ∅ (sampleActions ++ [.restart 7 true])
    _ (fun session => rfl) fun session now json hmem haccepts => ?_
  simp only [List.mem_singleton, Action.request.injEq, Request.login.injEq, Body.object.injEq]
    at hmem
  obtain ⟨-, -, rfl⟩ := hmem
  obtain ⟨-, -, account, admin, haccount, hadmin, hpassword⟩ := haccepts
  obtain rfl := Option.some.inj haccount
  have hsys : (AccountLedger.ofHistory (historyOf sampleCiphers ∅
      (sampleActions ++ [.restart 7 true]))).admins SYS_ADMIN_ACCOUNT = some sysAdmin := by
    decide +kernel
  obtain rfl := Option.some.inj (hsys.symm.trans hadmin)
  exact absurd hpassword (by decide)

end WebAdmin

end Stuart
