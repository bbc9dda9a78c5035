import PeerNode.Ledger

/-!
# The life of a request

A forwarded request that the network does not answer with a 200 is sent again, at first
immediately, from the callback that brings the answer, and then, when its retries are used
up, from the out queue. `Life` is that policy with everything else left out: the words a
request's life may spell, letter by letter, and the stage each leaves it in. Once parked it
has no letter for an immediate resend.

What keeps a worker to it is the generation the client counts up inside the request. A young
request has been resent no more often than its generation says, and a parked one has a
generation past the retries. That a generation grows with every accepted send is the one
thing assumed of the client (`GenerationsGrow`).
-/

namespace PeerNode

open Mealy Custody

variable {TX : Type} (env : Env TX)

/-! ## Lives -/

/-- What happens to one request. -/
inductive Beat
  | sent (site : Site)
  | answered (code : Int)
  | parked
deriving DecidableEq, Repr

/-- Where a life has got to. A young request counts its immediate resends. -/
inductive Stage
  | unborn
  | young (resends : Nat)
  | waiting
  | old
  | closed

/-- The lives the retry policy permits, with `retries` immediate resends. -/
inductive Life (retries : Nat) : List Beat → Stage → Prop
  | unborn : Life retries [] .unborn
  | forwarded : Life retries [.sent .forward] (.young 0)
  | forwardLost : Life retries [.sent .forward] .closed
  | resent {beats : List Beat} {n : Nat} {code : Int} (failed : code ≠ 200) (left : n < retries)
    (before : Life retries beats (.young n)) :
    Life retries (beats ++ [.answered code, .sent .resend]) (.young (n + 1))
  | resendLost {beats : List Beat} {n : Nat} {code : Int} (failed : code ≠ 200)
    (left : n < retries) (before : Life retries beats (.young n)) :
    Life retries (beats ++ [.answered code, .sent .resend]) .closed
  | parked {beats : List Beat} {n : Nat} {code : Int} (failed : code ≠ 200)
    (before : Life retries beats (.young n)) :
    Life retries (beats ++ [.answered code, .parked]) .waiting
  | offered {beats : List Beat} (before : Life retries beats .waiting) :
    Life retries (beats ++ [.sent .outQueue]) .old
  | offerLost {beats : List Beat} (before : Life retries beats .waiting) :
    Life retries (beats ++ [.sent .outQueue]) .closed
  | parkedAgain {beats : List Beat} {code : Int} (failed : code ≠ 200)
    (before : Life retries beats .old) :
    Life retries (beats ++ [.answered code, .parked]) .waiting
  | acknowledgedYoung {beats : List Beat} {n : Nat} (before : Life retries beats (.young n)) :
    Life retries (beats ++ [.answered 200]) .closed
  | acknowledgedOld {beats : List Beat} (before : Life retries beats .old) :
    Life retries (beats ++ [.answered 200]) .closed

/-- What may follow a parking, and the stage it leaves: an offer, then its answer, and unless that
is a 200 a parking again. -/
inductive Shelved : List Beat → Stage → Prop
  | parked : Shelved [] .waiting
  | offered {beats : List Beat} (before : Shelved beats .waiting) :
    Shelved (beats ++ [.sent .outQueue]) .old
  | offerLost {beats : List Beat} (before : Shelved beats .waiting) :
    Shelved (beats ++ [.sent .outQueue]) .closed
  | parkedAgain {beats : List Beat} {code : Int} (failed : code ≠ 200)
    (before : Shelved beats .old) : Shelved (beats ++ [.answered code, .parked]) .waiting
  | acknowledged {beats : List Beat} (before : Shelved beats .old) :
    Shelved (beats ++ [.answered 200]) .closed

theorem Shelved.not_resent {beats : List Beat} {stage : Stage} (h : Shelved beats stage) :
    .sent .resend ∉ beats := by
  induction h with
  | parked => simp
  | offered _ ih => simp [ih]
  | offerLost _ ih => simp [ih]
  | parkedAgain _ _ ih => simp [ih]
  | acknowledged _ ih => simp [ih]

/-- What a stage says of the beats that led to it. -/
def Stage.Recalls (retries : Nat) (beats : List Beat) : Stage → Prop
  | .unborn => beats = []
  | .young n => beats.count (.sent .resend) = n ∧ n ≤ retries ∧ .parked ∉ beats
  | _ => beats.count (.sent .resend) ≤ retries

theorem Life.recalls {retries : Nat} {beats : List Beat} {stage : Stage}
    (h : Life retries beats stage) : stage.Recalls retries beats := by
  induction h with
  | unborn => rfl
  | forwarded => exact ⟨rfl, Nat.zero_le _, by decide⟩
  | forwardLost => exact Nat.zero_le _
  | resent failed left _ ih =>
    obtain ⟨count, -, unparked⟩ := ih
    refine ⟨?_, left, ?_⟩
    · simp [count]
    · simp [unparked]
  | resendLost failed left _ ih =>
    obtain ⟨count, -, -⟩ := ih
    simp [Stage.Recalls, count]
    omega
  | parked failed _ ih =>
    obtain ⟨count, bound, -⟩ := ih
    simpa [Stage.Recalls, count] using bound
  | acknowledgedYoung _ ih =>
    obtain ⟨count, bound, -⟩ := ih
    simpa [Stage.Recalls, count] using bound
  | offered _ ih => simpa [Stage.Recalls] using ih
  | offerLost _ ih => simpa [Stage.Recalls] using ih
  | parkedAgain _ _ ih => simpa [Stage.Recalls] using ih
  | acknowledgedOld _ ih => simpa [Stage.Recalls] using ih

/-- **A life has at most `retries` immediate resends.** -/
theorem Life.resends_le {retries : Nat} {beats : List Beat} {stage : Stage}
    (h : Life retries beats stage) : beats.count (.sent .resend) ≤ retries := by
  have recalled := h.recalls
  cases stage with
  | unborn =>
    rw [show beats = [] from recalled]
    exact Nat.zero_le _
  | young n => exact recalled.1.trans_le recalled.2.1
  | waiting => exact recalled
  | old => exact recalled
  | closed => exact recalled

/-- A parking before the last beat, or at it. -/
private theorem split_snoc {l pre post : List Beat} {b : Beat}
    (h : l ++ [b] = pre ++ .parked :: post) :
    (b = .parked ∧ post = []) ∨ ∃ post', post = post' ++ [b] ∧ l = pre ++ .parked :: post' := by
  rcases post.eq_nil_or_concat with rfl | ⟨post', c, rfl⟩
  · obtain ⟨-, last⟩ := List.append_inj' h rfl
    exact .inl ⟨(List.cons.inj last).1, rfl⟩
  · rw [List.concat_eq_append, ← List.cons_append, ← List.append_assoc] at h
    obtain ⟨front, last⟩ := List.append_inj' h rfl
    obtain rfl := (List.cons.inj last).1
    exact .inr ⟨post', List.concat_eq_append, front⟩

/-- The same of two last beats of which the first is no parking. -/
private theorem split_snoc_two {l pre post : List Beat} {b c : Beat} (hb : b ≠ .parked)
    (h : l ++ [b, c] = pre ++ .parked :: post) :
    (c = .parked ∧ post = []) ∨
      ∃ post', post = post' ++ [b, c] ∧ l = pre ++ .parked :: post' := by
  rw [List.append_cons] at h
  rcases split_snoc h with last | ⟨post₁, rfl, front⟩
  · exact .inl last
  · rcases split_snoc front with ⟨parked, -⟩ | ⟨post₂, rfl, rest⟩
    · exact absurd parked hb
    · exact .inr ⟨post₂, List.append_assoc _ _ _, rest⟩

/-- **After a parking a life is shelved.** -/
theorem Life.shelved {retries : Nat} {beats : List Beat} {stage : Stage}
    (h : Life retries beats stage) {pre post : List Beat}
    (split : beats = pre ++ .parked :: post) : Shelved post stage := by
  have unparked : ∀ {beats n}, Life retries beats (.young n) → ∀ {post},
      beats ≠ pre ++ .parked :: post := by
    rintro beats n young post rfl
    exact young.recalls.2.2 (List.mem_append_right _ List.mem_cons_self)
  induction h generalizing post with
  | unborn => exact absurd split.symm (List.append_ne_nil_of_right_ne_nil _ (List.cons_ne_nil _ _))
  | forwarded => exact absurd split (unparked .forwarded)
  | forwardLost => exact absurd split (unparked .forwarded)
  | resent _ _ before _ =>
    rcases split_snoc_two (by simp) split with ⟨last, -⟩ | ⟨_, -, early⟩
    · cases last
    · exact absurd early (unparked before)
  | resendLost _ _ before _ =>
    rcases split_snoc_two (by simp) split with ⟨last, -⟩ | ⟨_, -, early⟩
    · cases last
    · exact absurd early (unparked before)
  | parked _ before _ =>
    rcases split_snoc_two (by simp) split with ⟨-, rfl⟩ | ⟨_, -, early⟩
    · exact .parked
    · exact absurd early (unparked before)
  | offered _ ih =>
    rcases split_snoc split with ⟨last, -⟩ | ⟨_, rfl, early⟩
    · cases last
    · exact .offered (ih early)
  | offerLost _ ih =>
    rcases split_snoc split with ⟨last, -⟩ | ⟨_, rfl, early⟩
    · cases last
    · exact .offerLost (ih early)
  | parkedAgain failed _ ih =>
    rcases split_snoc_two (by simp) split with ⟨-, rfl⟩ | ⟨_, rfl, early⟩
    · exact .parked
    · exact .parkedAgain failed (ih early)
  | acknowledgedYoung before _ =>
    rcases split_snoc split with ⟨last, -⟩ | ⟨_, -, early⟩
    · cases last
    · exact absurd early (unparked before)
  | acknowledgedOld _ ih =>
    rcases split_snoc split with ⟨last, -⟩ | ⟨_, rfl, early⟩
    · cases last
    · exact .acknowledged (ih early)

/-! ## The stories a worker tells -/

/-- What an action says of the request `id`. -/
def Action.beat? (id : Nat) : Action → Option Beat
  | .send site id' _ _ => if id' = id then some (.sent site) else none
  | .response id' code => if id' = id then some (.answered code) else none
  | .park req => if req.id = id then some .parked else none
  | _ => none

/-- The life of the request `id`, as a trace tells it. -/
def story (id : Nat) (tr : List Action) : List Beat := tr.filterMap (·.beat? id)

@[simp] theorem story_append (id : Nat) (tr acts : List Action) :
    story id (tr ++ acts) = story id tr ++ story id acts := List.filterMap_append

theorem story_aside {acts : List Action} (h : ∀ a ∈ acts, a.aside) (id : Nat) :
    story id acts = [] := by
  apply filterMap_aside _ h
  intro a aside
  cases a <;> first | rfl | exact aside.elim

/-- An accepted send makes the request's generation larger. -/
def Action.Grows : Action → Prop
  | .send _ _ (some req) (.accepted generation) => req.generation < generation
  | _ => True

instance (a : Action) : Decidable a.Grows := by
  unfold Action.Grows
  split <;> infer_instance

/-- What is assumed of the client: every accepted send does. -/
def GenerationsGrow (tr : List Action) : Prop := ∀ a ∈ tr, a.Grows

theorem GenerationsGrow.left {tr acts : List Action} (h : GenerationsGrow (tr ++ acts)) :
    GenerationsGrow tr :=
  fun a mem => h a (List.mem_append_left _ mem)

/-- The stages a request in flight may be at, by its generation. -/
def Stage.Suits (retries : Nat) (req : Request) : Stage → Prop
  | .young n => n ≤ req.generation
  | .old => retries ≤ req.generation
  | _ => False

/-- Every request leads a life the policy permits, and is where its life has got to. -/
structure Lives (retries : Nat) (w : Worker) (tr : List Action) : Prop where
  flies : ∀ req ∈ w.inFlight, ∃ stage : Stage,
    Life retries (story req.id tr) stage ∧ stage.Suits retries req
  waits : ∀ req ∈ w.outQueue,
    Life retries (story req.id tr) .waiting ∧ retries ≤ req.generation
  unborn : ∀ id, w.made ≤ id → story id tr = []
  lives : ∀ id, ∃ stage, Life retries (story id tr) stage
  parked : ∀ req, .park req ∈ tr → retries ≤ req.generation

/-- **One life goes on**, and the others stand still: what has to be shown of a move of the
request `t`. -/
theorem Lives.advance {retries : Nat} {w w' : Worker} {tr acts : List Action}
    (h : Lives retries w tr) (t : Nat) (stage : Stage)
    (life : Life retries (story t tr ++ story t acts) stage)
    (untold : ∀ u, u ≠ t → story u acts = [])
    (flies : ∀ req ∈ w'.inFlight,
      req ∈ w.inFlight ∧ req.id ≠ t ∨ req.id = t ∧ stage.Suits retries req)
    (waits : ∀ req ∈ w'.outQueue,
      req ∈ w.outQueue ∧ req.id ≠ t ∨ req.id = t ∧ stage = .waiting ∧ retries ≤ req.generation)
    (made : ∀ id, w'.made ≤ id → w.made ≤ id ∧ id ≠ t)
    (parked : ∀ req, .park req ∈ acts → retries ≤ req.generation) :
    Lives retries w' (tr ++ acts) := by
  have still : ∀ u, u ≠ t → story u (tr ++ acts) = story u tr := by
    intro u other
    rw [story_append, untold u other, List.append_nil]
  have moved : Life retries (story t (tr ++ acts)) stage := by rwa [story_append]
  refine ⟨?_, ?_, ?_, ?_, ?_⟩
  · intro req mem
    rcases flies req mem with ⟨before, other⟩ | ⟨rfl, suits⟩
    · rw [still _ other]
      exact h.flies req before
    · exact ⟨stage, moved, suits⟩
  · intro req mem
    rcases waits req mem with ⟨before, other⟩ | ⟨rfl, rfl, past⟩
    · rw [still _ other]
      exact h.waits req before
    · exact ⟨moved, past⟩
  · intro id unmade
    obtain ⟨before, other⟩ := made id unmade
    rw [still id other, h.unborn id before]
  · intro id
    by_cases same : id = t
    · exact ⟨stage, same ▸ moved⟩
    · rw [still id same]
      exact h.lives id
  · intro req mem
    rcases List.mem_append.mp mem with before | now
    · exact h.parked req before
    · exact parked req now

/-- A life ends, and its request is in none of the worker's lists. -/
theorem Lives.leave {retries : Nat} {w w' : Worker} {tr acts : List Action}
    (h : Lives retries w tr) {t : Nat} (life : Life retries (story t tr ++ story t acts) .closed)
    (untold : ∀ u, u ≠ t → story u acts = [])
    (flies : ∀ req ∈ w'.inFlight, req ∈ w.inFlight ∧ req.id ≠ t)
    (waits : ∀ req ∈ w'.outQueue, req ∈ w.outQueue ∧ req.id ≠ t)
    (made : ∀ id, w'.made ≤ id → w.made ≤ id ∧ id ≠ t) (unparked : ∀ req, .park req ∉ acts) :
    Lives retries w' (tr ++ acts) := by
  apply h.advance t .closed life untold
  · exact fun req mem => .inl (flies req mem)
  · exact fun req mem => .inl (waits req mem)
  · exact made
  · exact fun req mem => absurd mem (unparked req)

/-- A life goes on in flight: its request joins the others there under a new generation. -/
theorem Lives.launch {retries : Nat} {w w' : Worker} {tr acts : List Action}
    (h : Lives retries w tr) {t generation : Nat} {req : Request} {others : List Request}
    (same : req.id = t) {stage : Stage} (suits : stage.Suits retries { req with generation })
    (life : Life retries (story t tr ++ story t acts) stage)
    (untold : ∀ u, u ≠ t → story u acts = [])
    (inFlight : w'.inFlight = others ++ [{ req with generation }])
    (flies : ∀ req ∈ others, req ∈ w.inFlight ∧ req.id ≠ t)
    (waits : ∀ req ∈ w'.outQueue, req ∈ w.outQueue ∧ req.id ≠ t)
    (made : ∀ id, w'.made ≤ id → w.made ≤ id ∧ id ≠ t) (unparked : ∀ req, .park req ∉ acts) :
    Lives retries w' (tr ++ acts) := by
  apply h.advance t stage life untold
  · intro r mem
    rw [inFlight] at mem
    rcases List.mem_append.mp mem with before | now
    · exact .inl (flies r before)
    · rw [List.mem_singleton.mp now]
      exact .inr ⟨same, suits⟩
  · exact fun r mem => .inl (waits r mem)
  · exact made
  · exact fun r mem => absurd mem (unparked r)

/-- A move that is about no request changes no life. -/
theorem Lives.aside {retries : Nat} {w w' : Worker} {tr acts : List Action}
    (h : Lives retries w tr) (inFlight : w'.inFlight = w.inFlight)
    (outQueue : w'.outQueue = w.outQueue) (made : w'.made = w.made)
    (acts_aside : ∀ a ∈ acts, a.aside) : Lives retries w' (tr ++ acts) := by
  have still : ∀ id, story id (tr ++ acts) = story id tr := by
    intro id
    rw [story_append, story_aside acts_aside, List.append_nil]
  refine ⟨?_, ?_, ?_, ?_, ?_⟩
  · simpa only [still, inFlight] using h.flies
  · simpa only [still, outQueue] using h.waits
  · simpa only [still, made] using h.unborn
  · simpa only [still] using h.lives
  · intro req mem
    rcases List.mem_append.mp mem with before | now
    · exact h.parked req before
    · exact (acts_aside _ now).elim

section Moves

-- an action tells of the request it is about
attribute [local simp] story Action.beat?

/-- **Every move keeps to the policy.** -/
theorem move_lives {e : Event} {w w' : Worker} {tr acts : List Action}
    {loc : Whereabouts Place Nat} (move : Move env e w acts w') (books : Ledger w tr loc)
    (grows : GenerationsGrow (tr ++ acts))
    (h : Lives env.config.httpPostRetries.toNat w tr) :
    Lives env.config.httpPostRetries.toNat w' (tr ++ acts) := by
  -- what a request already made leaves to the numbers that are not
  have later : ∀ {t p}, loc t = some p → ∀ id, w.made ≤ id → w.made ≤ id ∧ id ≠ t :=
    fun here id unmade => ⟨unmade, (Nat.lt_of_lt_of_le (books.lt_made here) unmade).ne'⟩
  have next : ∀ id, w.made + 1 ≤ id → w.made ≤ id ∧ id ≠ w.made := fun id unmade => by omega
  -- and to the requests that are somewhere else
  have flies_below : ∀ r ∈ w.inFlight, r ∈ w.inFlight ∧ r.id ≠ w.made :=
    fun r mem => ⟨mem, (books.lt_made (books.loc_of_mem_inFlight mem)).ne⟩
  have waits_below : ∀ r ∈ w.outQueue, r ∈ w.outQueue ∧ r.id ≠ w.made :=
    fun r mem => ⟨mem, (books.lt_made (books.loc_of_mem_outQueue mem)).ne⟩
  have flies_on : ∀ {r'}, r' ∈ w.outQueue → ∀ r ∈ w.inFlight, r ∈ w.inFlight ∧ r.id ≠ r'.id :=
    fun waits r mem => ⟨mem, books.flight_ne_parked mem waits⟩
  have waits_on : ∀ {r'}, r' ∈ w.inFlight → ∀ r ∈ w.outQueue, r ∈ w.outQueue ∧ r.id ≠ r'.id :=
    fun flies r mem => ⟨mem, (books.flight_ne_parked flies mem).symm⟩
  cases move with
  | aside _ outQueue inFlight made acts_aside => exact h.aside inFlight outQueue made acts_aside
  | @forwarded _ _ _ req generation _ _ request =>
    have id_eq : req.id = w.made := makeHttpRequest_id env request
    have suits : (Stage.young 0).Suits env.config.httpPostRetries.toNat { req with generation } :=
      Nat.zero_le _
    refine h.launch id_eq suits ?_ ?_ rfl flies_below waits_below next ?_
    · rw [h.unborn w.made le_rfl]
      simpa using Life.forwarded
    · intro u other
      simp [Ne.symm other]
    · simp
  | @forwardLost _ _ _ req? _ _ _ request =>
    refine h.leave ?_ ?_ flies_below waits_below next ?_
    · rw [h.unborn w.made le_rfl]
      simpa using Life.forwardLost
    · intro u other
      simp [Ne.symm other]
    · simp
  | @acknowledged i req _ _ flying =>
    have mem := List.mem_of_getElem? flying
    obtain ⟨stage, life, suits⟩ := h.flies req mem
    refine h.leave ?_ ?_ (books.others_fly flying) (waits_on mem)
      (later (books.loc_of_mem_inFlight mem)) ?_
    · cases stage with
      | young n => simpa using Life.acknowledgedYoung life
      | old => simpa using Life.acknowledgedOld life
      | _ => exact suits.elim
    · intro u other
      simp [Ne.symm other]
    · simp
  | @resent i req code generation _ flying failed young =>
    have mem := List.mem_of_getElem? flying
    obtain ⟨stage, life, suits⟩ := h.flies req mem
    have grown : req.generation < generation :=
      grows (.send .resend req.id (some req) (.accepted generation)) (by simp)
    cases stage with
    | young n =>
      have count : n ≤ req.generation := suits
      have suits' : (Stage.young (n + 1)).Suits env.config.httpPostRetries.toNat
          { req with generation } := Nat.succ_le_of_lt (Nat.lt_of_le_of_lt count grown)
      refine h.launch rfl suits' ?_ ?_ rfl (books.others_fly flying) (waits_on mem)
        (later (books.loc_of_mem_inFlight mem)) ?_
      · simpa using Life.resent failed (Nat.lt_of_le_of_lt count young) life
      · intro u other
        simp [Ne.symm other]
      · simp
    | old => exact absurd young (Nat.not_lt_of_le suits)
    | _ => exact suits.elim
  | @resendLost i req code _ _ flying failed young =>
    have mem := List.mem_of_getElem? flying
    obtain ⟨stage, life, suits⟩ := h.flies req mem
    cases stage with
    | young n =>
      have count : n ≤ req.generation := suits
      refine h.leave ?_ ?_ (books.others_fly flying) (waits_on mem)
        (later (books.loc_of_mem_inFlight mem)) ?_
      · simpa using Life.resendLost failed (Nat.lt_of_le_of_lt count young) life
      · intro u other
        simp [Ne.symm other]
      · simp
    | old => exact absurd young (Nat.not_lt_of_le suits)
    | _ => exact suits.elim
  | @parked i req code _ _ flying failed old =>
    have mem := List.mem_of_getElem? flying
    have here := books.loc_of_mem_inFlight mem
    obtain ⟨stage, life, suits⟩ := h.flies req mem
    refine h.advance req.id .waiting ?_ ?_ ?_ ?_ (later here) ?_
    · cases stage with
      | young n => simpa using Life.parked failed life
      | old => simpa using Life.parkedAgain failed life
      | _ => exact suits.elim
    · intro u other
      simp [Ne.symm other]
    · exact fun r still => .inl (books.others_fly flying r still)
    · intro r waits
      rcases List.mem_append.mp waits with before | now
      · exact .inl (waits_on mem r before)
      · rw [List.mem_singleton.mp now]
        exact .inr ⟨rfl, rfl, old⟩
    · intro r now
      have same : r = req := by simpa using now
      rwa [same]
  | @offered req rest generation _ _ first =>
    have mem : req ∈ w.outQueue := first ▸ List.mem_cons_self
    obtain ⟨life, past⟩ := h.waits req mem
    have grown : req.generation < generation :=
      grows (.send .outQueue req.id (some req) (.accepted generation)) (by simp)
    have suits : Stage.old.Suits env.config.httpPostRetries.toNat { req with generation } :=
      past.trans grown.le
    refine h.launch rfl suits ?_ ?_ rfl (flies_on mem) (books.others_wait first)
      (later (books.loc_of_mem_outQueue mem)) ?_
    · simpa using Life.offered life
    · intro u other
      simp [Ne.symm other]
    · simp
  | @offerLost req rest _ _ first =>
    have mem : req ∈ w.outQueue := first ▸ List.mem_cons_self
    obtain ⟨life, -⟩ := h.waits req mem
    refine h.leave ?_ ?_ (flies_on mem) (books.others_wait first)
      (later (books.loc_of_mem_outQueue mem)) ?_
    · simpa using Life.offerLost life
    · intro u other
      simp [Ne.symm other]
    · simp

end Moves

/-! ## Over runs -/

/-- The books are right and, as far as the client has kept its word, so are the lives. -/
def Lived (w : Worker) (tr : List Action) : Prop :=
  (∃ loc, Ledger w tr loc) ∧
    (GenerationsGrow tr → Lives env.config.httpPostRetries.toNat w tr)

theorem lived (es : List Event) : Lived env (after env es) (done env es) := by
  refine (worker env).invariant_of_chain (Lived env) (step_moves env) ?_ ?_ es
  · refine ⟨⟨_, ledger_fresh⟩, fun _ => ⟨?_, ?_, ?_, ?_, ?_⟩⟩
    · exact fun _ mem => absurd mem List.not_mem_nil
    · exact fun _ mem => absurd mem List.not_mem_nil
    · exact fun _ _ => rfl
    · exact fun _ => ⟨.unborn, .unborn⟩
    · exact fun _ mem => absurd mem List.not_mem_nil
  · rintro e w w' acts tr move ⟨⟨loc, books⟩, lives⟩
    obtain ⟨loc', -, books'⟩ := move_ledger env move books
    exact ⟨⟨loc', books'⟩, fun grows => move_lives env move books grows (lives grows.left)⟩

/-- **Retries are bounded.** Over the life of any request there are at most as many immediate
resends as retries are configured; it is parked only when its generation has reached them; and
once it has been parked it is shelved: never resent, but offered once, and parked again unless
the answer is a 200. -/
theorem retries_bounded (es : List Event) (grows : GenerationsGrow (done env es)) :
    (∀ id, (story id (done env es)).count (.sent .resend) ≤ env.config.httpPostRetries.toNat) ∧
    (∀ req, .park req ∈ done env es → env.config.httpPostRetries.toNat ≤ req.generation) ∧
    ∀ id pre post, story id (done env es) = pre ++ .parked :: post →
      .sent .resend ∉ post ∧ ∃ stage, Shelved post stage := by
  have lives := (lived env es).2 grows
  refine ⟨?_, lives.parked, ?_⟩
  · intro id
    obtain ⟨stage, life⟩ := lives.lives id
    exact life.resends_le
  · intro id pre post split
    obtain ⟨stage, life⟩ := lives.lives id
    have shelved := life.shelved split
    exact ⟨shelved.not_resent, stage, shelved⟩

/-- A request that is parked after its first answer and then offered. -/
def parkedRun : List Event :=
  [.call (.request plainSend (.accepted 1))] ++
    [.call (.response 0 500 .refused), .call (.outQueue fun _ => .accepted 2)]

theorem retries_bounded_plain :
    (story 0 (done (.plain {}) parkedRun)).count (.sent .resend) ≤ 1 ∧
      ∀ pre post, story 0 (done (.plain {}) parkedRun) = pre ++ .parked :: post →
        .sent .resend ∉ post := by
  have room : ¬ tooMany (.plain {}) {} := room_of_unlimited rfl {}
  have grows : GenerationsGrow (done (.plain {}) parkedRun) := by
    unfold GenerationsGrow
    rw [parkedRun, done_append, after_plain room, done_plain room]
    decide
  obtain ⟨bounded, -, shelved⟩ := retries_bounded (.plain {}) parkedRun grows
  exact ⟨bounded 0, fun pre post split => (shelved 0 pre post split).1⟩

end PeerNode
