import PlatformHealth.Ipc.Requests
import PlatformHealth.Library.StdString

namespace PlatformHealth

open ByteString (utf8)

open StdString

namespace Dispatch

-- idPos + 4, colon + 1 and stop - colon - 1 are computed before anything is tested but npos
def extractId (request : Bytes) : Except OutOfRange Bytes :=
  let idPos := find request (utf8 "\"id\"") 0
  if idPos = npos then .ok (utf8 "null")
  else
    let colon := find request (utf8 ":") (idPos + 4)
    if colon = npos then .ok (utf8 "null")
    else
      let stop := findFirstOf request (utf8 ",\x7d") (colon + 1)
      if stop = npos then .ok (utf8 "null")
      else do
        let id ← substr request (colon + 1) (stop - colon - 1)
        let id ← erase id 0 (findFirstNotOf id (utf8 " \t"))
        erase id (findLastNotOf id (utf8 " \t") + 1) npos

def extractQuoted (request key : Bytes) (keySize : UInt64) : Except OutOfRange Quoted :=
  let pos := find request key 0
  if pos = npos then .ok .missing
  else
    let colon := find request (utf8 ":") (pos + keySize)
    let start := find request (utf8 "\"") (colon + 1)
    if start = npos then .ok .invalid
    else do
      let start := start + 1
      let stop := find request (utf8 "\"") start
      return .text (← substr request start (stop - start))

def extractMethod (request : Bytes) : Except OutOfRange Quoted :=
  extractQuoted request (utf8 "\"method\"") 8

def extractName (request : Bytes) : Except OutOfRange Quoted :=
  extractQuoted request (utf8 "\"name\"") 6

section
variable {m : Type → Type} [Monad m]

def search : Search (ExceptT OutOfRange m) where
  extractId request := ofExcept (extractId request)
  extractMethod request := ofExcept (extractMethod request)
  extractName request := ofExcept (extractName request)

def lifted (engine : EngineCalls m) : EngineCalls (ExceptT OutOfRange m) where
  getGlobalState := engine.getGlobalState
  getEntity name := engine.getEntity name
  getEntityNames := engine.getEntityNames
  reloadConfiguration := engine.reloadConfiguration
  getStats := engine.getStats

def dispatch (engine : EngineCalls m) (request : Bytes) : ExceptT OutOfRange m Bytes :=
  IpcServer.dispatchBy search (lifted engine) request

end

section
variable {request key : Bytes} {keySize : UInt64}

theorem find_le {pattern : Bytes} {pos : Nat} (h : request.length ≤ maxSize) :
    ∀ k ∈ ByteString.find request pattern pos, k ≤ maxSize :=
  fun _ hk => (ByteString.find_lt hk).2.le.trans h

theorem extractQuoted_eq (h : request.length ≤ maxSize) (hkey : key.length ≤ 8)
    (hsize : keySize = UInt64.ofNat key.length) :
    extractQuoted request key keySize = .ok (IpcServer.quotedText key request) := by
  have hspec := IpcServer.extractQuoted_eq request key
  have hzero : find request key 0 = toSize (ByteString.find request key 0) := rfl
  unfold IpcServer.extractQuoted at hspec
  unfold extractQuoted
  rw [hzero]
  cases hpos : ByteString.find request key 0 with
  | none =>
    rw [hpos] at hspec
    exact (if_pos rfl).trans (congrArg Except.ok (Option.some.inj hspec))
  | some pos =>
    have hle := find_le h pos hpos
    rw [hpos] at hspec
    dsimp only at hspec ⊢
    rw [if_neg (toSize_some_ne hle), hsize, find_add request _ hle hkey, find_next request _ (find_le h)]
    cases hstart : ByteString.find request (utf8 "\"")
        (ByteString.next (ByteString.find request (utf8 ":") (pos + key.length))) with
    | none =>
      rw [hstart] at hspec
      exact (if_pos rfl).trans (congrArg Except.ok (Option.some.inj hspec))
    | some start =>
      have hlt : start + 1 ≤ request.length := (ByteString.find_lt hstart).2
      rw [hstart] at hspec
      obtain ⟨text, htext, hquoted⟩ := Option.bind_eq_some_iff.mp hspec
      rw [if_neg (toSize_some_ne (find_le h start hstart)), toSize_succ, find_at _ _ (hlt.trans h),
        substr_between h hlt ?_ htext]
      · exact congrArg Except.ok (Option.some.inj hquoted)
      · intro j hj
        have hfound := ByteString.find_lt hj
        exact ⟨hfound.1, hfound.2.le.trans h⟩

theorem extractId_eq (h : request.length ≤ maxSize) :
    extractId request = .ok (IpcServer.idText request) := by
  have hspec := IpcServer.extractId_eq request
  have hzero : find request (utf8 "\"id\"") 0 = toSize (ByteString.find request (utf8 "\"id\"") 0) := rfl
  unfold IpcServer.extractId at hspec
  unfold extractId
  rw [hzero]
  cases hid : ByteString.find request (utf8 "\"id\"") 0 with
  | none =>
    rw [hid] at hspec
    exact (if_pos rfl).trans (congrArg Except.ok (Option.some.inj hspec))
  | some idPos =>
    have hle := find_le h idPos hid
    have hfour : find request (utf8 ":") (toSize (some idPos) + 4) =
        toSize (ByteString.find request (utf8 ":") (idPos + 4)) := find_add request _ hle (by decide)
    rw [hid] at hspec
    dsimp only at hspec ⊢
    rw [if_neg (toSize_some_ne hle), hfour]
    cases hcolon : ByteString.find request (utf8 ":") (idPos + 4) with
    | none =>
      rw [hcolon] at hspec
      exact (if_pos rfl).trans (congrArg Except.ok (Option.some.inj hspec))
    | some colon =>
      have hlt : colon + 1 ≤ request.length := (ByteString.find_lt hcolon).2
      rw [hcolon] at hspec
      dsimp only at hspec
      rw [if_neg (toSize_some_ne (find_le h colon hcolon)), toSize_succ,
        findFirstOf_at _ _ (Nat.le_trans hlt h), sub_toSize_succ]
      cases hstop : ByteString.findFirstOf request (utf8 ",\x7d") (colon + 1) with
      | none =>
        rw [hstop] at hspec
        exact (if_pos rfl).trans (congrArg Except.ok (Option.some.inj hspec))
      | some stop =>
        have hbounds := ByteString.findFirstOf_lt hstop
        rw [hstop] at hspec
        obtain ⟨text, htext, hspec⟩ := Option.bind_eq_some_iff.mp hspec
        have hsub := substr_between (o := some stop) h hlt
          (by rintro j ⟨⟩; exact ⟨hbounds.1, hbounds.2.le.trans h⟩)
          (htext : ByteString.substr request (colon + 1) (some (stop - (colon + 1))) = some text)
        rw [if_neg (toSize_some_ne (hbounds.2.le.trans h)), hsub]
        exact trim_eq ((ByteString.length_of_substr htext).trans h) hspec

end

section
variable {m : Type → Type} [Monad m] [LawfulMonad m] (engine : EngineCalls m)

theorem reply_lifted (c : IpcCall) : (lifted engine).reply c = liftM (engine.reply c) := by
  cases c with
  | getEntity name =>
    simp only [EngineCalls.reply, lifted, liftM_bind]
    congr 1
    funext found
    rcases found with _ | ⟨name, state⟩ <;> simp
  | _ => simp [EngineCalls.reply, lifted]

theorem dispatch_eq {request : Bytes} (h : request.length ≤ maxSize) :
    dispatch engine request = liftM (engine.answer (IpcServer.extracted request)) := by
  have hmethod : extractMethod request = .ok (IpcServer.quotedText (utf8 "\"method\"") request) :=
    extractQuoted_eq h (by decide) rfl
  have hname : extractName request = .ok (IpcServer.quotedText (utf8 "\"name\"") request) :=
    extractQuoted_eq h (by decide) rfl
  have hall : dispatch engine request = (lifted engine).answer (IpcServer.extracted request) := by
    refine EngineCalls.dispatchBy_eq _ ?_ ?_ ?_
    · simp only [search, extractId_eq h, ofExcept]
    · simp only [search, hmethod, ofExcept]
    · simp only [search, hname, ofExcept]
  rw [hall, EngineCalls.answer, reply_lifted, EngineCalls.answer, liftM_map]

end

theorem dispatch_engineCalls {μ : Type} (parsed : Except String ParseResult) {request : Bytes}
    (h : request.length ≤ maxSize) :
    dispatch (IpcServer.engineCalls parsed : EngineCalls (EngineM μ)) request =
      liftM (IpcServer.dispatch parsed request : EngineM μ Bytes) := by
  rw [dispatch_eq _ h, IpcServer.dispatch_eq]
  rfl

theorem dispatch_returns {σ : Type} (engine : EngineCalls (StateM σ)) (request : Bytes)
    (h : request.length ≤ maxSize) (s : σ) :
    ∃ response t, (dispatch engine request).run.run s = (.ok response, t) := by
  rw [dispatch_eq engine h]
  exact ⟨_, _, rfl⟩

def silentEngine : EngineCalls (StateM Unit) where
  getGlobalState := return .running
  getEntity _ := return none
  getEntityNames := return []
  reloadConfiguration := return false
  getStats := return {}

theorem truncated_request_returns :
    ∃ response t, (dispatch silentEngine (utf8 "\x7b\"id\":1,\"method\"")).run.run () =
      (.ok response, t) :=
  dispatch_returns silentEngine _ (by decide +kernel) ()

end Dispatch

end PlatformHealth
