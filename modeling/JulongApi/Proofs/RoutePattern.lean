/-
Two patterns that match one request are found to intersect.

Everything is said of the segments: `segmentsOf_append` and its kin say what a slash more does to
them, and `segmentsMatch_intersect` walks through both patterns with the request.
-/
import JulongApi.RoutePattern
import JulongApi.Proofs.Strings

namespace JulongApi.PluginRouting

/-! ### The segments of a path -/

variable {s start reserved : String} {i : Nat}

theorem hasPrefix_iff : hasPrefix s start = true ↔ ∃ rest, s.toList = start.toList ++ rest := by
  unfold hasPrefix
  rw [List.isPrefixOf_iff_prefix]
  exact ⟨fun ⟨rest, h⟩ => ⟨rest, h.symm⟩, fun ⟨rest, h⟩ => ⟨rest, h.symm⟩⟩

theorem absolute_iff {path : String} :
    hasPrefix path "/" = true ↔ ∃ body, path.toList = '/' :: body := hasPrefix_iff

theorem segmentsOf_absolute {path : String} {body : List Char} (h : path.toList = '/' :: body) :
    segmentsOf path = (body.splitOn '/').map String.ofList := by
  have hprefix : "/".toList.isPrefixOf path.toList = true := by
    rw [h]
    rfl
  have htrim : trimPrefix path "/" = String.ofList body := by
    unfold trimPrefix cutPrefix
    rw [if_pos hprefix, h]
    rfl
  unfold segmentsOf split
  rw [htrim, String.toList_ofList]

theorem segmentsOf_ne_nil (path : String) : segmentsOf path ≠ [] := by
  unfold segmentsOf split
  rw [Ne, List.map_eq_nil_iff]
  exact List.splitOn_ne_nil _ _

theorem segmentsOf_append {path rest : String} (h : hasPrefix path "/" = true) :
    segmentsOf (path ++ "/" ++ rest) = segmentsOf path ++ split rest '/' := by
  obtain ⟨body, hbody⟩ := absolute_iff.mp h
  have hlist : (path ++ "/" ++ rest).toList = '/' :: (body ++ '/' :: rest.toList) := by
    rw [String.toList_append, String.toList_append, hbody]
    simp
  rw [segmentsOf_absolute hlist, segmentsOf_absolute hbody, List.splitOn_append_cons_self,
    List.map_append]
  rfl

theorem segmentsOf_append_slash {path : String} (h : hasPrefix path "/" = true) :
    segmentsOf (path ++ "/") = segmentsOf path ++ [""] := by
  have happend : segmentsOf (path ++ "/" ++ "") = segmentsOf path ++ split "" '/' :=
    segmentsOf_append h
  rw [String.append_empty] at happend
  exact happend

theorem splitOn_last {sep : Char} {text last : List Char} {pieces : List (List Char)}
    (h : text.splitOn sep = pieces ++ [last]) :
    pieces = [] ∧ text = last ∨
      ∃ front, text = front ++ sep :: last ∧ front.splitOn sep = pieces := by
  by_cases hmem : sep ∈ text
  · right
    have hreverse : sep ∈ text.reverse := List.mem_reverse.mpr hmem
    obtain ⟨tail, front, heq, hnot⟩ := List.eq_append_cons_of_mem hreverse
    have htext : text = front.reverse ++ sep :: tail.reverse := by
      rw [← List.reverse_reverse text, heq]
      simp
    rw [htext, List.splitOn_append_cons_self,
      List.splitOn_eq_singleton (fun hin => hnot (List.mem_reverse.mp hin))] at h
    obtain ⟨hfront, hlast⟩ := List.append_inj' h rfl
    rw [List.singleton_inj] at hlast
    exact ⟨front.reverse, hlast ▸ htext, hfront⟩
  · left
    rw [List.splitOn_eq_singleton hmem] at h
    have hinj : [] = pieces ∧ [text] = [last] := @List.append_inj' _ [] _ _ _ h rfl
    exact ⟨hinj.1.symm, List.singleton_inj.mp hinj.2⟩

theorem segmentsOf_last {path last : String} {segments : List String}
    (h : hasPrefix path "/" = true) (hsegments : segmentsOf path = segments ++ [last]) :
    segments = [] ∧ path = "/" ++ last ∨
      ∃ front, hasPrefix front "/" = true ∧ path = front ++ "/" ++ last ∧
        segmentsOf front = segments := by
  obtain ⟨body, hbody⟩ := absolute_iff.mp h
  rw [segmentsOf_absolute hbody] at hsegments
  obtain ⟨pieces, lastPiece, hpieces, hsegments', hlast⟩ := List.map_eq_append_iff.mp hsegments
  obtain ⟨piece, rfl, hpiece⟩ := List.map_eq_singleton_iff.mp hlast
  have hpiece' : piece = last.toList := by rw [← hpiece, String.toList_ofList]
  obtain ⟨rfl, rfl⟩ | ⟨front, rfl, hfront⟩ := splitOn_last hpieces
  · left
    refine ⟨hsegments'.symm, String.toList_inj.mp ?_⟩
    rw [hbody, hpiece', String.toList_append]
    rfl
  · right
    have habsolute : (String.ofList ('/' :: front)).toList = '/' :: front := String.toList_ofList
    refine ⟨String.ofList ('/' :: front), absolute_iff.mpr ⟨front, habsolute⟩, ?_, ?_⟩
    · refine String.toList_inj.mp ?_
      rw [hbody, hpiece', String.toList_append, String.toList_append, habsolute]
      simp
    · rw [segmentsOf_absolute habsolute, hfront, hsegments']

/-! ### Matching -/

theorem not_hasPrefix_empty (h : start ≠ "") : hasPrefix "" start = false := by
  by_contra hprefix
  obtain ⟨rest, heq⟩ := hasPrefix_iff.mp (Bool.not_eq_false _ ▸ hprefix)
  have hnil : start.toList = [] := (List.append_eq_nil_iff.mp heq.symm).1
  exact h (String.toList_inj.mp hnil)

section Matching

variable {part segment : String} {parts segments : List String}

theorem segmentsMatch_catchAll (h : hasPrefix part "*" = true) :
    segmentsMatch (part :: parts) (segment :: segments) = true := by
  unfold segmentsMatch
  rw [if_pos h]

theorem segmentsMatch_cons (h : hasPrefix part "*" = false) :
    segmentsMatch (part :: parts) (segment :: segments) = true ↔
      (if hasPrefix part ":" = true then segment ≠ "" else part = segment) ∧
        segmentsMatch parts segments = true := by
  rw [segmentsMatch, if_neg (by rw [h]; exact Bool.false_ne_true)]
  by_cases hparameter : hasPrefix part ":" = true
  · rw [if_pos hparameter, if_pos hparameter, Bool.and_eq_true, decide_eq_true_eq]
  · rw [if_neg hparameter, if_neg hparameter, Bool.and_eq_true, decide_eq_true_eq]

theorem segmentsMatch_intersect : ∀ {left right segments : List String},
    segmentsMatch left segments = true → segmentsMatch right segments = true →
      segmentsIntersect (left.map .of) (right.map .of) = true := by
  intro left
  induction left with
  | nil =>
    intro right segments hleft hright
    cases segments with
    | nil =>
      cases right with
      | nil => rfl
      | cons part parts => cases hright
    | cons segment segments => cases hleft
  | cons part parts ih =>
    intro right segments hleft hright
    cases segments with
    | nil => cases hleft
    | cons segment segments =>
      cases right with
      | nil => cases hright
      | cons part' parts' =>
        show segmentsIntersect (.of part :: parts.map .of) (.of part' :: parts'.map .of) = true
        by_cases hcatchAll : (hasPrefix part "*" || hasPrefix part' "*") = true
        · unfold segmentsIntersect
          exact if_pos hcatchAll
        · have hnone := hcatchAll
          rw [Bool.not_eq_true, Bool.or_eq_false_iff] at hnone
          obtain ⟨hpart, hparts⟩ := (segmentsMatch_cons hnone.1).mp hleft
          obtain ⟨hpart', hparts'⟩ := (segmentsMatch_cons hnone.2).mp hright
          have hcolon : ∀ s : String, hasPrefix s ":" = true → s ≠ "" := by
            rintro s hs rfl
            rw [not_hasPrefix_empty (by decide)] at hs
            cases hs
          -- neither do two static segments differ, nor does a parameter meet an empty one
          have hagree : (!(hasPrefix part ":" || hasPrefix part "*") &&
              !(hasPrefix part' ":" || hasPrefix part' "*") && decide (part ≠ part')) = false := by
            rw [hnone.1, hnone.2, Bool.or_false, Bool.or_false]
            by_cases hleft : hasPrefix part ":" = true
            · rw [hleft]
              rfl
            · by_cases hright : hasPrefix part' ":" = true
              · rw [hright, Bool.not_true, Bool.and_false, Bool.false_and]
              · rw [if_neg hleft] at hpart
                rw [if_neg hright] at hpart'
                rw [hpart, hpart', decide_eq_false (not_not.mpr rfl), Bool.and_false]
          have hempty : ((hasPrefix part ":" || hasPrefix part "*") && decide (part' = "") ||
              (hasPrefix part' ":" || hasPrefix part' "*") && decide (part = "")) = false := by
            rw [hnone.1, hnone.2, Bool.or_false, Bool.or_false, Bool.or_eq_false_iff,
              Bool.and_eq_false_imp, Bool.and_eq_false_imp]
            constructor
            · intro hleft
              rw [if_pos hleft] at hpart
              by_cases hright : hasPrefix part' ":" = true
              · exact decide_eq_false (hcolon part' hright)
              · rw [if_neg hright] at hpart'
                rw [hpart']
                exact decide_eq_false hpart
            · intro hright
              rw [if_pos hright] at hpart'
              by_cases hleft : hasPrefix part ":" = true
              · exact decide_eq_false (hcolon part hleft)
              · rw [if_neg hleft] at hpart
                rw [hpart]
                exact decide_eq_false hpart'
          unfold segmentsIntersect
          refine (if_neg hcatchAll).trans ((if_neg ?_).trans ((if_neg ?_).trans ?_))
          · exact fun htrue => Bool.false_ne_true (hagree.symm.trans htrue)
          · exact fun htrue => Bool.false_ne_true (hempty.symm.trans htrue)
          · exact ih hparts hparts'

end Matching

/-! ### Patterns in two parts -/

def NoCatchAll (parts : List String) : Prop := ∀ part ∈ parts, hasPrefix part "*" = false

theorem noCatchAll_nil : NoCatchAll [] := by
  intro part hmem
  cases hmem

theorem segmentsMatch_append : ∀ {front back start rest : List String}, NoCatchAll front →
    segmentsMatch front start = true → segmentsMatch back rest = true →
      segmentsMatch (front ++ back) (start ++ rest) = true := by
  intro front
  induction front with
  | nil =>
    intro back start rest _ hfront hback
    cases start with
    | nil => exact hback
    | cons segment start => cases hfront
  | cons part front ih =>
    intro back start rest hnone hfront hback
    obtain ⟨hpart, hnone⟩ := List.forall_mem_cons.mp hnone
    cases start with
    | nil => cases hfront
    | cons segment start =>
      obtain ⟨hsegment, hfront⟩ := (segmentsMatch_cons hpart).mp hfront
      exact (segmentsMatch_cons hpart).mpr ⟨hsegment, ih hnone hfront hback⟩

theorem segmentsMatch_split : ∀ {front back segments : List String}, NoCatchAll front →
    segmentsMatch (front ++ back) segments = true → ∃ start rest, segments = start ++ rest ∧
      segmentsMatch front start = true ∧ segmentsMatch back rest = true := by
  intro front
  induction front with
  | nil => exact fun _ hmatch => ⟨[], _, rfl, rfl, hmatch⟩
  | cons part front ih =>
    intro back segments hnone hmatch
    obtain ⟨hpart, hnone⟩ := List.forall_mem_cons.mp hnone
    cases segments with
    | nil => cases hmatch
    | cons segment segments =>
      obtain ⟨hsegment, hmatch⟩ := (segmentsMatch_cons hpart).mp hmatch
      obtain ⟨start, rest, rfl, hfront, hback⟩ := ih hnone hmatch
      exact ⟨segment :: start, rest, rfl, (segmentsMatch_cons hpart).mpr ⟨hsegment, hfront⟩, hback⟩

theorem segmentsMatch_concat : ∀ {parts segments : List String} {segment : String},
    NoCatchAll parts → segmentsMatch parts (segments ++ [segment]) = true →
      ∃ front last, parts = front ++ [last] ∧ segmentsMatch front segments = true ∧
        segmentsMatch [last] [segment] = true := by
  intro parts
  induction parts with
  | nil =>
    intro segments segment _ hmatch
    cases segments with
    | nil => cases hmatch
    | cons _ _ => cases hmatch
  | cons part parts ih =>
    intro segments segment hnone hmatch
    obtain ⟨hpart, hnone'⟩ := List.forall_mem_cons.mp hnone
    cases segments with
    | nil =>
      obtain ⟨hsegment, hrest⟩ := (segmentsMatch_cons hpart).mp hmatch
      cases parts with
      | nil => exact ⟨[], part, rfl, rfl, hmatch⟩
      | cons _ _ => cases hrest
    | cons first segments =>
      obtain ⟨hfirst, hrest⟩ := (segmentsMatch_cons hpart).mp hmatch
      obtain ⟨front, last, rfl, hfront, hlast⟩ := ih hnone' hrest
      exact ⟨part :: front, last, rfl, (segmentsMatch_cons hpart).mpr ⟨hfirst, hfront⟩, hlast⟩

theorem segmentsMatch_empty {part : String} (hpart : hasPrefix part "*" = false)
    (h : segmentsMatch [part] [""] = true) : part = "" := by
  obtain ⟨hempty, -⟩ := (segmentsMatch_cons hpart).mp h
  by_cases hparameter : hasPrefix part ":" = true
  · rw [if_pos hparameter] at hempty
    exact absurd rfl hempty
  · rw [if_neg hparameter] at hempty
    exact hempty

/-! ### The routes that Gin registers -/

theorem GinSegments.last : ∀ {front rest : List String} {part : String},
    GinSegments (front ++ part :: rest) → hasPrefix part "*" = true → rest = [] ∧ part ≠ "*" := by
  intro front
  induction front with
  | nil => exact fun h hpart => h.1 hpart
  | cons _ front ih => exact fun h hpart => ih h.2 hpart

theorem GinSegments.cases : ∀ {parts : List String}, GinSegments parts →
    NoCatchAll parts ∨
      ∃ front last, parts = front ++ [last] ∧ NoCatchAll front ∧ hasPrefix last "*" = true := by
  intro parts
  induction parts with
  | nil => exact fun _ => .inl noCatchAll_nil
  | cons part parts ih =>
    intro h
    by_cases hpart : hasPrefix part "*" = true
    · obtain rfl := (h.1 hpart).1
      exact .inr ⟨[], part, rfl, noCatchAll_nil, hpart⟩
    · rw [Bool.not_eq_true] at hpart
      obtain hnone | ⟨front, last, rfl, hnone, hlast⟩ := ih h.2
      · exact .inl (List.forall_mem_cons.mpr ⟨hpart, hnone⟩)
      · exact .inr ⟨part :: front, last, rfl, List.forall_mem_cons.mpr ⟨hpart, hnone⟩, hlast⟩

/-! ### Where a catch-all stands in a path -/

theorem lastIndex_some {sep : String} (h : lastIndex s sep = some i) :
    ∃ rest, s.toList = s.toList.take i ++ (sep.toList ++ rest) := by
  have hprefix := List.find?_some h
  rw [List.isPrefixOf_iff_prefix] at hprefix
  obtain ⟨rest, hrest⟩ := hprefix
  exact ⟨rest, by rw [hrest, List.take_append_drop]⟩

theorem lastIndex_none {sep : String} (h : lastIndex s sep = none) (front back : List Char) :
    s.toList ≠ front ++ (sep.toList ++ back) := by
  intro heq
  have hnot := List.find?_eq_none.mp h front.length
    (List.mem_reverse.mpr (List.mem_range.mpr (by rw [heq, List.length_append]; omega)))
  rw [heq, List.drop_left, List.isPrefixOf_iff_prefix] at hnot
  exact hnot ⟨back, rfl⟩

theorem segmentsOf_catchAll {path : String} {rest : List Char} (h : hasPrefix path "/" = true)
    (hpath : path.toList = path.toList.take i ++ ('/' :: '*' :: rest)) :
    ∃ front part back, segmentsOf path = front ++ part :: back ∧ hasPrefix part "*" = true ∧
      (back = [] → part.toList = '*' :: rest) ∧
      (front = [] ∨ hasPrefix (String.ofList (path.toList.take i)) "/" = true ∧
        segmentsOf (String.ofList (path.toList.take i)) = front) := by
  obtain ⟨piece, pieces, hpieces⟩ := List.exists_cons_of_ne_nil (List.splitOn_ne_nil '/' rest)
  have hsplit : ('*' :: rest).splitOn '/' = ('*' :: piece) :: pieces := by
    rw [List.splitOn_cons_eq_if_modifyHead, if_neg (by decide), hpieces, List.modifyHead_cons]
  have hpart : hasPrefix (String.ofList ('*' :: piece)) "*" = true :=
    hasPrefix_iff.mpr ⟨piece, String.toList_ofList⟩
  have hback : pieces.map String.ofList = [] → (String.ofList ('*' :: piece)).toList = '*' :: rest := by
    intro hnil
    rw [List.map_eq_nil_iff] at hnil
    have hjoin : ['/'].intercalate (('*' :: rest).splitOn '/') = '*' :: rest :=
      List.intercalate_splitOn '/'
    rw [hsplit, hnil] at hjoin
    rw [String.toList_ofList]
    simpa using hjoin
  cases htake : path.toList.take i with
  | nil =>
    rw [htake, List.nil_append] at hpath
    refine ⟨[], String.ofList ('*' :: piece), pieces.map String.ofList, ?_, hpart, hback, .inl rfl⟩
    rw [segmentsOf_absolute hpath, hsplit]
    rfl
  | cons c front =>
    obtain ⟨body, hbody⟩ := absolute_iff.mp h
    rw [htake, List.cons_append] at hpath
    obtain rfl : '/' = c := (List.cons.inj (hbody.symm.trans hpath)).1
    have hfront : (String.ofList ('/' :: front)).toList = '/' :: front := String.toList_ofList
    refine ⟨segmentsOf (String.ofList ('/' :: front)), String.ofList ('*' :: piece),
      pieces.map String.ofList, ?_, hpart, hback, .inr ⟨absolute_iff.mpr ⟨front, hfront⟩, rfl⟩⟩
    rw [segmentsOf_absolute hpath, segmentsOf_absolute hfront, List.splitOn_append_cons_self,
      hsplit, List.map_append]
    rfl

theorem lastIndex_of_noCatchAll {path : String} (h : hasPrefix path "/" = true)
    (hnone : NoCatchAll (segmentsOf path)) : lastIndex path "/*" = none := by
  cases hindex : lastIndex path "/*" with
  | none => rfl
  | some i =>
    obtain ⟨rest, hpath⟩ := lastIndex_some hindex
    obtain ⟨front, part, back, hsegments, hpart, -⟩ := segmentsOf_catchAll h hpath
    have hnot : hasPrefix part "*" = false := hnone part (by rw [hsegments]; simp)
    exact absurd (hnot.symm.trans hpart) Bool.false_ne_true

theorem lastIndex_of_catchAll {path last : String} {front : List String} (h : GinPath path)
    (hsegments : segmentsOf path = front ++ [last]) (hlast : hasPrefix last "*" = true) :
    ∃ i, lastIndex path "/*" = some i ∧ i + 2 < path.toList.length ∧
      (front = [] ∨ hasPrefix (String.ofList (path.toList.take i)) "/" = true ∧
        segmentsOf (String.ofList (path.toList.take i)) = front) := by
  have hgin : GinSegments (segmentsOf path) := h.2
  cases hindex : lastIndex path "/*" with
  | none =>
    exfalso
    obtain ⟨name, hname⟩ := hasPrefix_iff.mp hlast
    obtain ⟨-, hpath⟩ | ⟨start, -, hpath, -⟩ := segmentsOf_last h.1 hsegments
    · refine lastIndex_none hindex [] name ?_
      rw [hpath, String.toList_append, hname]
      rfl
    · refine lastIndex_none hindex start.toList name ?_
      rw [hpath, String.toList_append, String.toList_append, hname, List.append_assoc]
      rfl
  | some i =>
    obtain ⟨rest, hpath⟩ := lastIndex_some hindex
    obtain ⟨front', part, back, hsegments', hpart, hrest, hfront⟩ := segmentsOf_catchAll h.1 hpath
    rw [hsegments'] at hgin
    obtain ⟨rfl, hnamed⟩ := hgin.last hpart
    obtain rfl : front = front' := List.append_inj_left' (hsegments.symm.trans hsegments') rfl
    refine ⟨i, rfl, ?_, hfront⟩
    -- a catch-all has a name
    have hlength : rest ≠ [] := by
      rintro rfl
      exact hnamed (String.toList_inj.mp (hrest rfl))
    have hle := List.length_pos_iff.mpr hlength
    have htotal := congrArg List.length hpath
    have htwo : "/*".toList.length = 2 := by rfl
    have htake : (path.toList.take i).length ≤ i := List.length_take_le _ _
    have hi : i < path.toList.length + 1 :=
      List.mem_range.mp (List.mem_reverse.mp (List.mem_of_find?_eq_some hindex))
    rw [List.length_append, List.length_append, htwo, List.length_take] at htotal
    omega

/-! ### A plugin route and a host route -/

/-- An empty segment and a catch-all come last. -/
def Plain : List String → Prop
  | [] => True
  | part :: parts =>
    (part = "" → parts = []) ∧ (hasPrefix part "*" = true → parts = []) ∧ Plain parts

theorem segmentsMatch_double : ∀ {parts segments : List String}, Plain parts →
    segmentsMatch parts (segments ++ ["", ""]) = true →
      segmentsMatch parts (segments ++ [""]) = true := by
  intro parts
  induction parts with
  | nil =>
    intro segments _ hmatch
    cases segments <;> cases hmatch
  | cons part parts ih =>
    intro segments hplain hmatch
    obtain ⟨hempty, -, hplain⟩ := hplain
    by_cases hcatchAll : hasPrefix part "*" = true
    · cases segments with
      | nil => exact segmentsMatch_catchAll hcatchAll
      | cons segment segments => exact segmentsMatch_catchAll hcatchAll
    · rw [Bool.not_eq_true] at hcatchAll
      cases segments with
      | nil =>
        obtain ⟨hpart, hrest⟩ := (segmentsMatch_cons hcatchAll).mp hmatch
        by_cases hparameter : hasPrefix part ":" = true
        · rw [if_pos hparameter] at hpart
          exact absurd rfl hpart
        · rw [if_neg hparameter] at hpart
          rw [hempty hpart] at hrest
          cases hrest
      | cons segment segments =>
        obtain ⟨hpart, hrest⟩ := (segmentsMatch_cons hcatchAll).mp hmatch
        exact (segmentsMatch_cons hcatchAll).mpr ⟨hpart, ih hplain hrest⟩

theorem routePatternsIntersect_of_match {left right : String} {segments : List String}
    (hleft : segmentsMatch (segmentsOf left) segments = true)
    (hright : segmentsMatch (segmentsOf right) segments = true) :
    routePatternsIntersect left right = true :=
  segmentsMatch_intersect hleft hright

theorem routeIntersectsStaticRoute_of_intersect {pluginPath staticPath : String}
    (h : routePatternsIntersect pluginPath staticPath = true) :
    routeIntersectsStaticRoute pluginPath staticPath = true := if_pos h

theorem routeIntersectsStaticRoute_of_alternate {pluginPath staticPath : String}
    (h : hasPrefix staticPath "/" = true) (hnone : NoCatchAll (segmentsOf staticPath))
    (halternate : routeIntersectsAlternate pluginPath staticPath = true) :
    routeIntersectsStaticRoute pluginPath staticPath = true := by
  unfold routeIntersectsStaticRoute
  rw [lastIndex_of_noCatchAll h hnone]
  by_cases hexact : routePatternsIntersect pluginPath staticPath = true
  · exact if_pos hexact
  · rw [if_neg hexact]
    exact halternate

theorem routeIntersectsStaticRoute_of_start {pluginPath staticPath : String}
    (hindex : lastIndex staticPath "/*" = some i) (hlong : i + 2 < staticPath.toList.length)
    (hstart : routePatternsIntersect pluginPath (String.ofList (staticPath.toList.take i)) = true) :
    routeIntersectsStaticRoute pluginPath staticPath = true := by
  unfold routeIntersectsStaticRoute
  rw [hindex]
  by_cases hexact : routePatternsIntersect pluginPath staticPath = true
  · exact if_pos hexact
  · rw [if_neg hexact]
    dsimp only
    rw [if_pos hlong, hstart, Bool.true_or]

theorem routeIntersectsStaticRoute_of_longer {pluginPath staticPath : String}
    {segments : List String} (hgin : GinPath staticPath) (hne : segments ≠ [])
    (hplugin : segmentsMatch (segmentsOf pluginPath) segments = true)
    (hstatic : segmentsMatch (segmentsOf staticPath) (segments ++ [""]) = true) :
    routeIntersectsStaticRoute pluginPath staticPath = true := by
  obtain hnone | ⟨front, last, hsegments, hnone, hlast⟩ := hgin.2.cases
  · obtain ⟨front, last, hsegments, hfront, hempty⟩ := segmentsMatch_concat hnone hstatic
    have hlastNone : hasPrefix last "*" = false := hnone last (by rw [hsegments]; simp)
    obtain rfl := segmentsMatch_empty hlastNone hempty
    refine routeIntersectsStaticRoute_of_alternate hgin.1 hnone ?_
    obtain ⟨rfl, -⟩ | ⟨alternate, -, hpath, halternate⟩ := segmentsOf_last hgin.1 hsegments
    · cases segments with
      | nil => exact absurd rfl hne
      | cons _ _ => cases hfront
    · rw [String.append_empty] at hpath
      have hroot : staticPath ≠ "/" := by
        rintro rfl
        have hone : segmentsOf "/" = [""] := by rfl
        rw [hone] at hsegments
        have hfrontNil : [] = front ∧ [""] = [""] := @List.append_inj' _ [] _ _ _ hsegments rfl
        rw [← hfrontNil.1] at hfront
        cases segments with
        | nil => exact hne rfl
        | cons _ _ => cases hfront
      have hcut : cutSuffix staticPath "/" = some alternate := cutSuffix_eq_some.mpr hpath
      unfold routeIntersectsAlternate
      rw [if_neg hroot, hcut]
      exact routePatternsIntersect_of_match hplugin (halternate ▸ hfront)
  · obtain ⟨i, hindex, hlong, hstart⟩ := lastIndex_of_catchAll hgin hsegments hlast
    rw [hsegments] at hstatic
    obtain ⟨start, rest, heq, hfront, hrest⟩ := segmentsMatch_split hnone hstatic
    obtain rfl | ⟨rest, segment, rfl⟩ := List.eq_nil_or_concat' rest
    · cases hrest
    · rw [← List.append_assoc] at heq
      obtain ⟨rfl, -⟩ := List.append_inj' heq rfl
      cases rest with
      | nil =>
        rw [List.append_nil] at hplugin hne
        obtain rfl | ⟨-, hstart⟩ := hstart
        · cases start with
          | nil => exact absurd rfl hne
          | cons _ _ => cases hfront
        · exact routeIntersectsStaticRoute_of_start hindex hlong
            (routePatternsIntersect_of_match hplugin (hstart ▸ hfront))
      | cons segment rest =>
        refine routeIntersectsStaticRoute_of_intersect (routePatternsIntersect_of_match hplugin ?_)
        rw [hsegments]
        exact segmentsMatch_append hnone hfront (segmentsMatch_catchAll hlast)

theorem routeIntersectsStaticRoute_of_shorter {pluginPath staticPath : String}
    {segments : List String} (hgin : GinPath staticPath) (hplain : Plain (segmentsOf pluginPath))
    (hplugin : segmentsMatch (segmentsOf pluginPath) (segments ++ [""]) = true)
    (hstatic : segmentsMatch (segmentsOf staticPath) segments = true) :
    routeIntersectsStaticRoute pluginPath staticPath = true := by
  obtain hnone | ⟨front, last, hsegments, hnone, hlast⟩ := hgin.2.cases
  · obtain rfl | ⟨segments, segment, rfl⟩ := List.eq_nil_or_concat' segments
    · obtain ⟨part, parts, hparts⟩ := List.exists_cons_of_ne_nil (segmentsOf_ne_nil staticPath)
      rw [hparts] at hstatic
      cases hstatic
    · obtain ⟨front, last, hsegments, -, hlast⟩ := segmentsMatch_concat hnone hstatic
      have hlastNone : hasPrefix last "*" = false := hnone last (by rw [hsegments]; simp)
      by_cases hempty : last = ""
      · subst hempty
        -- both have their slash already
        obtain ⟨hsegment, -⟩ := (segmentsMatch_cons hlastNone).mp hlast
        rw [if_neg (by rw [not_hasPrefix_empty (by decide)]; exact Bool.false_ne_true)] at hsegment
        subst hsegment
        rw [List.append_assoc] at hplugin
        exact routeIntersectsStaticRoute_of_intersect
          (routePatternsIntersect_of_match (segmentsMatch_double hplain hplugin) hstatic)
      · have hnoSlash : ∀ alternate, cutSuffix staticPath "/" ≠ some alternate := by
          intro alternate hcut
          have hpath := cutSuffix_eq_some.mp hcut
          by_cases habsolute : hasPrefix alternate "/" = true
          · rw [hpath, segmentsOf_append_slash habsolute] at hsegments
            exact hempty (List.singleton_inj.mp (List.append_inj' hsegments rfl).2).symm
          · obtain ⟨body, hbody⟩ := absolute_iff.mp hgin.1
            rw [hpath, String.toList_append] at hbody
            cases hchars : alternate.toList with
            | nil =>
              have hnil : alternate = "" := String.toList_inj.mp hchars
              have hroot : staticPath = "/" := by rw [hpath, hnil, String.empty_append]
              rw [hroot] at hsegments
              have hone : segmentsOf "/" = [] ++ [""] := by rfl
              rw [hone] at hsegments
              exact hempty (List.singleton_inj.mp (List.append_inj' hsegments rfl).2).symm
            | cons c chars =>
              rw [hchars, List.cons_append, List.cons.injEq] at hbody
              rw [hbody.1] at hchars
              exact habsolute (absolute_iff.mpr ⟨chars, hchars⟩)
        have hroot : staticPath ≠ "/" := by
          rintro rfl
          exact hnoSlash "" (cutSuffix_eq_some.mpr rfl)
        refine routeIntersectsStaticRoute_of_alternate hgin.1 hnone ?_
        unfold routeIntersectsAlternate
        rw [if_neg hroot, Option.eq_none_iff_forall_ne_some.mpr hnoSlash]
        refine routePatternsIntersect_of_match hplugin ?_
        rw [segmentsOf_append_slash hgin.1]
        exact segmentsMatch_append hnone hstatic (by rfl)
  · rw [hsegments] at hstatic
    obtain ⟨start, rest, rfl, hfront, hrest⟩ := segmentsMatch_split hnone hstatic
    refine routeIntersectsStaticRoute_of_intersect (routePatternsIntersect_of_match hplugin ?_)
    rw [hsegments, List.append_assoc]
    refine segmentsMatch_append hnone hfront ?_
    cases rest with
    | nil => cases hrest
    | cons segment rest => exact segmentsMatch_catchAll hlast

/-! ### Reserved namespaces -/

theorem segmentsOf_prefix_of_inNamespace {path : String} (h : hasPrefix reserved "/" = true)
    (hin : InNamespace reserved path) : segmentsOf reserved <+: segmentsOf path := by
  obtain rfl | hprefix := hin
  · exact List.prefix_refl _
  · obtain ⟨rest, hrest⟩ := hasPrefix_iff.mp hprefix
    have hpath : path = reserved ++ "/" ++ String.ofList rest := by
      refine String.toList_inj.mp ?_
      have hright : (reserved ++ "/" ++ String.ofList rest).toList =
          (reserved ++ "/").toList ++ rest := by rw [String.toList_append, String.toList_ofList]
      exact hrest.trans hright.symm
    rw [hpath, segmentsOf_append h]
    exact List.prefix_append _ _

theorem Plain.last : ∀ {front rest : List String} {part : String},
    Plain (front ++ part :: rest) → part = "" → rest = [] := by
  intro front
  induction front with
  | nil => exact fun h hpart => h.1 hpart
  | cons _ front ih => exact fun h hpart => ih h.2.2 hpart

theorem dropWhile_slash {c : Char} {rest : List Char} (h : c ≠ '/') :
    (c :: rest).dropWhile (· == '/') = c :: rest := by
  rw [List.dropWhile_cons, if_neg (by simpa using h)]

theorem segmentsOf_trimmed {path : String} (h : hasPrefix path "/" = true)
    (hplain : Plain (segmentsOf path)) :
    let trimmed := split (trimChar (trimPrefix path "/") '/') '/'
    segmentsOf path = trimmed ∨ segmentsOf path = trimmed ++ [""] := by
  obtain ⟨body, hbody⟩ := absolute_iff.mp h
  have htrim : (trimPrefix path "/").toList = body := by
    unfold trimPrefix cutPrefix
    rw [if_pos (List.isPrefixOf_iff_prefix.mpr ⟨body, hbody.symm⟩), hbody]
    exact String.toList_ofList
  have hsegments := segmentsOf_absolute hbody
  rw [hsegments] at hplain ⊢
  unfold trimChar split
  dsimp only
  rw [htrim, String.toList_ofList]
  cases body with
  | nil => exact .inl rfl
  | cons c rest =>
    have hc : c ≠ '/' := by
      rintro rfl
      rw [List.splitOn_cons_eq_if_modifyHead, if_pos (by rfl), List.map_cons] at hplain
      exact List.splitOn_ne_nil '/' rest (List.map_eq_nil_iff.mp (hplain.1 rfl))
    rw [dropWhile_slash hc]
    obtain hnil | ⟨front, d, hfront⟩ := List.eq_nil_or_concat' (c :: rest)
    · cases hnil
    · rw [hfront] at hplain ⊢
      by_cases hd : d = '/'
      · right
        subst hd
        obtain rfl | ⟨front, e, rfl⟩ := List.eq_nil_or_concat' front
        · exact absurd (List.cons.inj hfront).1 hc
        · have he : e ≠ '/' := by
            rintro rfl
            rw [List.append_assoc] at hplain
            change Plain (((front ++ '/' :: ('/' :: [])).splitOn '/').map String.ofList) at hplain
            rw [List.splitOn_append_cons_self, List.map_append] at hplain
            exact absurd (hplain.last rfl) (by simp)
          rw [List.reverse_concat, List.dropWhile_cons, if_pos (by rfl), List.reverse_concat,
            dropWhile_slash he, ← List.reverse_concat, List.reverse_reverse,
            List.splitOn_append_cons_self, List.map_append]
          rfl
      · left
        rw [List.reverse_concat, dropWhile_slash hd, ← List.reverse_concat, List.reverse_reverse]

theorem segmentsMeetNamespace_of_match : ∀ {reserved trimmed parts segments : List String},
    (parts = trimmed ∨ parts = trimmed ++ [""]) → (∀ part ∈ reserved, part ≠ "") →
      reserved <+: segments → segmentsMatch parts segments = true →
        segmentsMeetNamespace trimmed reserved = true := by
  intro reserved
  induction reserved with
  | nil =>
    intro trimmed _ _ _ _ _ _
    cases trimmed <;> rfl
  | cons first reserved ih =>
    intro trimmed parts segments htrimmed hfull hprefix hmatch
    obtain ⟨hfirst, hfull⟩ := List.forall_mem_cons.mp hfull
    cases segments with
    | nil => exact absurd (List.prefix_nil.mp hprefix) (List.cons_ne_nil _ _)
    | cons segment segments =>
      obtain ⟨rfl, hrestPrefix⟩ := List.cons_prefix_cons.mp hprefix
      cases trimmed with
      | nil =>
        exfalso
        obtain rfl | rfl := htrimmed
        · cases hmatch
        · obtain ⟨hempty, -⟩ := (segmentsMatch_cons (not_hasPrefix_empty (by decide))).mp hmatch
          rw [if_neg (by rw [not_hasPrefix_empty (by decide)]; exact Bool.false_ne_true)] at hempty
          exact hfirst hempty.symm
      | cons part trimmed =>
        obtain ⟨parts, rfl, hrestTrimmed⟩ : ∃ parts', parts = part :: parts' ∧
            (parts' = trimmed ∨ parts' = trimmed ++ [""]) := by
          obtain rfl | rfl := htrimmed
          · exact ⟨trimmed, rfl, .inl rfl⟩
          · exact ⟨trimmed ++ [""], rfl, .inr rfl⟩
        unfold segmentsMeetNamespace
        by_cases hcatchAll : hasPrefix part "*" = true
        · rw [if_pos hcatchAll]
        · rw [if_neg hcatchAll]
          rw [Bool.not_eq_true] at hcatchAll
          obtain ⟨hpart, hrest⟩ := (segmentsMatch_cons hcatchAll).mp hmatch
          have hagree : (!hasPrefix part ":" && decide (part ≠ first)) = false := by
            by_cases hparameter : hasPrefix part ":" = true
            · rw [hparameter]
              rfl
            · rw [if_neg hparameter] at hpart
              rw [hpart, decide_eq_false (not_not.mpr rfl), Bool.and_false]
          rw [if_neg (fun htrue => Bool.false_ne_true (hagree.symm.trans htrue))]
          exact ih hrestTrimmed hfull hrestPrefix hrest

/-! ### Paths that are accepted -/

theorem cutPrefix_of_hasPrefix (h : hasPrefix s start = true) :
    ∃ rest, cutPrefix s start = some rest := ⟨_, if_pos h⟩

theorem cutPrefix_of_not_hasPrefix (h : hasPrefix s start = false) :
    cutPrefix s start = none := if_neg (Bool.not_eq_true _ ▸ h)

theorem not_catchAll_of_parameter {segment : String} (h : hasPrefix segment ":" = true) :
    segment ≠ "" ∧ hasPrefix segment "*" = false := by
  obtain ⟨name, hname⟩ := hasPrefix_iff.mp h
  constructor
  · rintro rfl
    rw [not_hasPrefix_empty (by decide)] at h
    cases h
  · by_contra hcatchAll
    obtain ⟨name', hname'⟩ := hasPrefix_iff.mp (Bool.not_eq_false _ ▸ hcatchAll)
    exact absurd (List.cons.inj (hname.symm.trans hname')).1 (by decide)

theorem plain_of_checkSegments : ∀ {segments seenNames : List String},
    checkSegments seenNames segments = .ok () → Plain segments := by
  intro segments
  induction segments with
  | nil => exact fun _ => trivial
  | cons segment rest ih =>
    intro seenNames h
    unfold checkSegments at h
    by_cases hlast : segment = "" ∧ rest = []
    · obtain ⟨-, rfl⟩ := hlast
      exact ⟨fun _ => rfl, fun _ => rfl, trivial⟩
    · rw [if_neg hlast] at h
      obtain ⟨hdot, h⟩ := guard_eq_ok.mp h
      by_cases hparameter : hasPrefix segment ":" = true
      · obtain ⟨name, hcut⟩ := cutPrefix_of_hasPrefix hparameter
        obtain ⟨hne, hcatchAll⟩ := not_catchAll_of_parameter hparameter
        rw [hcut] at h
        obtain ⟨hname, h⟩ := guard_eq_ok.mp h
        obtain ⟨hseen, h⟩ := guard_eq_ok.mp h
        refine ⟨fun hempty => absurd hempty hne, fun hpart => ?_, ih h⟩
        exact absurd (hcatchAll.symm.trans hpart) Bool.false_ne_true
      · rw [cutPrefix_of_not_hasPrefix (Bool.not_eq_true _ ▸ hparameter)] at h
        dsimp only at h
        by_cases hcatchAll : hasPrefix segment "*" = true
        · obtain ⟨name, hcut⟩ := cutPrefix_of_hasPrefix hcatchAll
          rw [hcut] at h
          obtain ⟨hname, h⟩ := guard_eq_ok.mp h
          obtain ⟨hseen, h⟩ := guard_eq_ok.mp h
          rw [Bool.not_eq_true, Bool.or_eq_false_iff, decide_eq_false_iff_not,
            not_not] at hname
          exact ⟨fun _ => hname.1, fun _ => hname.1, ih h⟩
        · rw [cutPrefix_of_not_hasPrefix (Bool.not_eq_true _ ▸ hcatchAll)] at h
          obtain ⟨hstatic, h⟩ := guard_eq_ok.mp h
          refine ⟨fun hempty => ?_, fun hpart => absurd hpart hcatchAll, ih h⟩
          rw [hempty] at hstatic
          exact absurd rfl hstatic

theorem normalizeRoutePath_ok {routePath normalized : String}
    (h : normalizeRoutePath routePath = .ok normalized) :
    normalized = routePath ∧ hasPrefix routePath "/" = true ∧ Plain (segmentsOf routePath) := by
  unfold normalizeRoutePath at h
  obtain ⟨habsolute, h⟩ := guard_eq_ok.mp h
  obtain ⟨hroot, h⟩ := guard_eq_ok.mp h
  obtain ⟨hquery, h⟩ := guard_eq_ok.mp h
  obtain ⟨hempty, h⟩ := guard_eq_ok.mp h
  obtain ⟨⟨⟩, hcheck, hsame⟩ := bind_eq_ok.mp h
  refine ⟨(Except.ok.inj hsame).symm, ?_, plain_of_checkSegments hcheck⟩
  rw [Bool.not_eq_true, Bool.not_eq_false'] at habsolute
  exact habsolute

/-! ### Requests -/

section Requests

variable {left right pluginPath staticPath path : String}

theorem Matches.intersect (hleft : Matches left path) (hright : Matches right path) :
    routePatternsIntersect left right = true :=
  routePatternsIntersect_of_match hleft.2 hright.2

theorem Matches.intersectsStatic (hgin : GinPath staticPath)
    (hplain : Plain (segmentsOf pluginPath)) (hplugin : Matches pluginPath path)
    (hstatic : UpToSlash (Matches staticPath) path) :
    routeIntersectsStaticRoute pluginPath staticPath = true := by
  obtain hexact | hlonger | ⟨shorter, rfl, hshorter⟩ := hstatic
  · exact routeIntersectsStaticRoute_of_intersect (hplugin.intersect hexact)
  · have hmatch := hlonger.2
    rw [segmentsOf_append_slash hplugin.1] at hmatch
    exact routeIntersectsStaticRoute_of_longer hgin (segmentsOf_ne_nil path) hplugin.2 hmatch
  · have hmatch := hplugin.2
    rw [segmentsOf_append_slash hshorter.1] at hmatch
    exact routeIntersectsStaticRoute_of_shorter hgin hplain hmatch hshorter.2

theorem reserved_absolute : ∀ reserved ∈ reservedRouteNamespaces, hasPrefix reserved "/" = true ∧
    ∀ part ∈ segmentsOf reserved, part ≠ "" := by decide +kernel

theorem segmentsOf_prefix_of_upToSlash (h : hasPrefix reserved "/" = true)
    (hfull : ∀ part ∈ segmentsOf reserved, part ≠ "") (hpath : hasPrefix path "/" = true)
    (hin : UpToSlash (InNamespace reserved) path) : segmentsOf reserved <+: segmentsOf path := by
  obtain hexact | hlonger | ⟨shorter, rfl, hshorter⟩ := hin
  · exact segmentsOf_prefix_of_inNamespace h hexact
  · have hprefix := segmentsOf_prefix_of_inNamespace h hlonger
    rw [segmentsOf_append_slash hpath, List.prefix_concat_iff] at hprefix
    obtain heq | hprefix := hprefix
    · exact absurd rfl (hfull "" (heq ▸ by simp))
    · exact hprefix
  · have habsolute : hasPrefix shorter "/" = true := by
      obtain rfl | hprefix := hshorter
      · exact h
      · obtain ⟨body, hbody⟩ := absolute_iff.mp h
        obtain ⟨rest, hrest⟩ := hasPrefix_iff.mp hprefix
        rw [String.toList_append, hbody] at hrest
        exact absolute_iff.mpr ⟨_, hrest⟩
    rw [segmentsOf_append_slash habsolute]
    exact (segmentsOf_prefix_of_inNamespace h hshorter).trans (List.prefix_append _ _)

theorem Matches.intersectsReserved (hplain : Plain (segmentsOf pluginPath))
    (habsolute : hasPrefix pluginPath "/" = true) (hplugin : Matches pluginPath path)
    (hmem : reserved ∈ reservedRouteNamespaces) (hin : UpToSlash (InNamespace reserved) path) :
    routePatternIntersectsNamespace pluginPath reserved = true := by
  obtain ⟨hreserved, hfull⟩ := reserved_absolute reserved hmem
  exact segmentsMeetNamespace_of_match (segmentsOf_trimmed habsolute hplain) hfull
    (segmentsOf_prefix_of_upToSlash hreserved hfull hplugin.1 hin) hplugin.2

end Requests

end JulongApi.PluginRouting
