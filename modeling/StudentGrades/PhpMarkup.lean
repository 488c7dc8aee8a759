import StudentGrades.IndexPhp

/-!
# The markup of the page the program replaces

The script answers with an error page where the driver or the database is missing.
Otherwise it writes the options and rows between fixed blocks of markup, every
text through `htmlspecialchars`. That function returns an empty text where its
argument is not UTF-8 and, under strict types, refuses a null. An exception that
nothing catches ends the script.
-/

namespace StudentGrades
open ByteText

namespace IndexPhp

abbrev Expected := List (UInt8 × UInt8)

def tail : UInt8 × UInt8 := (128, 191)

/-- The bytes that may follow the first byte of a character. -/
def afterLead (b : UInt8) : Option Expected :=
  if b < 128 then some []
  else if b < 194 then none
  else if b < 224 then some [tail]
  else if b = 224 then some [(160, 191), tail]
  else if b = 237 then some [(128, 159), tail]
  else if b < 240 then some [tail, tail]
  else if b = 240 then some [(144, 191), tail, tail]
  else if b < 244 then some [tail, tail, tail]
  else if b = 244 then some [(128, 143), tail, tail]
  else none

def validFrom : Expected → Bytes → Bool
  | expected, [] => expected.isEmpty
  | [], b :: bs =>
    match afterLead b with
    | none => false
    | some expected => validFrom expected bs
  | range :: expected, b :: bs => range.1 ≤ b && b ≤ range.2 && validFrom expected bs

/-- The text is well-formed UTF-8: no overlong form, no surrogate, nothing past the last plane. -/
def validUtf8 (text : Bytes) : Bool := validFrom [] text

def specialChar (b : UInt8) : Bytes :=
  if b = 38 then utf8 "&amp;"
  else if b = 60 then utf8 "&lt;"
  else if b = 62 then utf8 "&gt;"
  else if b = 34 then utf8 "&quot;"
  else if b = 39 then utf8 "&#039;"
  else [b]

/-- With `ENT_QUOTES` alone and the charset `UTF-8`. -/
def htmlspecialchars (text : Bytes) : Bytes :=
  if validUtf8 text then text.flatMap specialChar else []

def errorPage (message : String) : Bytes :=
  utf8 "<!DOCTYPE html>\n" ++
  utf8 "<html lang=\"zh-CN\">\n" ++
  utf8 "<head><meta charset=\"UTF-8\"><title>教育成绩数据分析平台</title></head>\n" ++
  utf8 "<body><h1>教育成绩数据分析平台</h1><p>" ++ utf8 message ++ utf8 "</p></body>\n" ++
  utf8 "</html>\n"

def extensionMissing : Bytes := errorPage "PDO_PGSQL 扩展未安装"

def connectionFailed : Bytes := errorPage "数据库连接失败，请检查配置"

def headOpen : Bytes :=
  List.flatMap utf8 [
    "<!DOCTYPE html>\n",
    "<html lang=\"zh-CN\">\n",
    "<head>\n",
    "  <meta charset=\"UTF-8\">\n",
    "  <title>教育成绩数据分析平台</title>\n",
    "  <style>\n"
  ]

def styleSheet : Bytes :=
  withBraces <| List.flatMap utf8 [
    "    *, *::before, *::after [ box-sizing: border-box; margin: 0; padding: 0; ]\n",
    "    body [\n",
    "      font-family: -apple-system, BlinkMacSystemFont, \"Segoe UI\", Roboto, \"Noto Sans SC\", sans-serif;\n",
    "      color: #e2e8f0; line-height: 1.6; min-height: 100vh;\n",
    "      background: #0a0e27;\n",
    "      overflow-x: hidden;\n",
    "    ]\n",
    "    /* Animated gradient orb layers */\n",
    "    body::before, body::after [\n",
    "      content: ''; position: fixed; border-radius: 50%; filter: blur(120px); z-index: 0;\n",
    "      animation: orbFloat 12s ease-in-out infinite alternate;\n",
    "    ]\n",
    "    body::before [\n",
    "      width: 600px; height: 600px;\n",
    "      background: radial-gradient(circle, rgba(59,130,246,.35) 0%, transparent 70%);\n",
    "      top: -150px; left: -100px;\n",
    "    ]\n",
    "    body::after [\n",
    "      width: 500px; height: 500px;\n",
    "      background: radial-gradient(circle, rgba(139,92,246,.3) 0%, transparent 70%);\n",
    "      bottom: -100px; right: -80px;\n",
    "      animation-delay: -6s;\n",
    "    ]\n",
    "    @keyframes orbFloat [\n",
    "      0%   [ transform: translate(0,0) scale(1); ]\n",
    "      50%  [ transform: translate(60px,-40px) scale(1.25); ]\n",
    "      100% [ transform: translate(-30px,30px) scale(1.1); ]\n",
    "    ]\n",
    "    /* Grid overlay */\n",
    "    .grid-bg [\n",
    "      position: fixed; inset: 0; z-index: 0; opacity: .06; pointer-events: none;\n",
    "      background-image:\n",
    "        linear-gradient(rgba(59,130,246,.5) 1px, transparent 1px),\n",
    "        linear-gradient(90deg, rgba(59,130,246,.5) 1px, transparent 1px);\n",
    "      background-size: 60px 60px;\n",
    "      animation: gridPulse 8s ease-in-out infinite alternate;\n",
    "    ]\n",
    "    @keyframes gridPulse [\n",
    "      0%   [ opacity: .04; ]\n",
    "      100% [ opacity: .1; ]\n",
    "    ]\n",
    "    /* Sci-fi globe */\n",
    "    .globe-wrap [\n",
    "      position: fixed; z-index: 0; pointer-events: none;\n",
    "      top: 50%; left: 50%; transform: translate(-50%,-50%);\n",
    "      width: 500px; height: 500px;\n",
    "    ]\n",
    "    .globe [\n",
    "      position: absolute; inset: 20px; border-radius: 50%;\n",
    "      background:\n",
    "        radial-gradient(circle at 35% 35%, rgba(59,130,246,.15) 0%, transparent 50%),\n",
    "        radial-gradient(circle at 50% 50%, rgba(16,185,129,.08) 0%, transparent 70%);\n",
    "      box-shadow:\n",
    "        inset 0 0 80px rgba(59,130,246,.12),\n",
    "        0 0 60px rgba(37,99,235,.15),\n",
    "        0 0 120px rgba(37,99,235,.06);\n",
    "      animation: globePulse 6s ease-in-out infinite alternate;\n",
    "    ]\n",
    "    /* Wireframe latitude lines */\n",
    "    .globe::before [\n",
    "      content: ''; position: absolute; inset: 0; border-radius: 50%;\n",
    "      background:\n",
    "        radial-gradient(ellipse 80% 2px at 50% 25%, transparent 49%, rgba(59,130,246,.25) 50%, transparent 51%),\n",
    "        radial-gradient(ellipse 90% 2px at 50% 50%, transparent 49%, rgba(59,130,246,.2) 50%, transparent 51%),\n",
    "        radial-gradient(ellipse 80% 2px at 50% 75%, transparent 49%, rgba(59,130,246,.15) 50%, transparent 51%);\n",
    "    ]\n",
    "    /* Longitude arcs */\n",
    "    .globe::after [\n",
    "      content: ''; position: absolute; inset: 0; border-radius: 50%;\n",
    "      background:\n",
    "        linear-gradient(90deg, transparent 49.5%, rgba(59,130,246,.15) 50%, transparent 50.5%),\n",
    "        linear-gradient(150deg, transparent 49.5%, rgba(59,130,246,.1) 50%, transparent 50.5%),\n",
    "        linear-gradient(30deg, transparent 49.5%, rgba(59,130,246,.1) 50%, transparent 50.5%);\n",
    "    ]\n",
    "    /* Orbit ring 1 - horizontal */\n",
    "    .ring [ position: absolute; border-radius: 50%; pointer-events: none; ]\n",
    "    .ring-1 [\n",
    "      inset: -30px; border: 1px solid rgba(59,130,246,.12);\n",
    "      animation: ringSpin1 20s linear infinite;\n",
    "      clip-path: polygon(0 0, 100% 0, 100% 60%, 0 60%);\n",
    "    ]\n",
    "    .ring-2 [\n",
    "      inset: -50px; border: 1px solid rgba(139,92,246,.08);\n",
    "      transform: rotateX(70deg);\n",
    "      animation: ringSpin2 25s linear infinite;\n",
    "    ]\n",
    "    .ring-3 [\n",
    "      inset: -15px; border: 1px solid rgba(16,185,129,.1);\n",
    "      transform: rotateY(60deg);\n",
    "      animation: ringSpin3 18s linear infinite;\n",
    "    ]\n",
    "    /* Small orbiting dot */\n",
    "    .ring-1::after [\n",
    "      content: ''; position: absolute; width: 6px; height: 6px;\n",
    "      background: rgba(96,165,250,.8); border-radius: 50%;\n",
    "      top: -3px; left: 50%;\n",
    "      box-shadow: 0 0 8px rgba(59,130,246,.6);\n",
    "    ]\n",
    "    @keyframes globePulse [\n",
    "      0%   [ box-shadow: inset 0 0 80px rgba(59,130,246,.12), 0 0 60px rgba(37,99,235,.15), 0 0 120px rgba(37,99,235,.06); ]\n",
    "      100% [ box-shadow: inset 0 0 100px rgba(59,130,246,.18), 0 0 80px rgba(37,99,235,.2), 0 0 160px rgba(37,99,235,.1); ]\n",
    "    ]\n",
    "    @keyframes ringSpin1 [ 0% [ transform: rotateX(75deg) rotateZ(0deg); ] 100% [ transform: rotateX(75deg) rotateZ(360deg); ] ]\n",
    "    @keyframes ringSpin2 [ 0% [ transform: rotateX(70deg) rotateZ(0deg); ] 100% [ transform: rotateX(70deg) rotateZ(-360deg); ] ]\n",
    "    @keyframes ringSpin3 [ 0% [ transform: rotateY(60deg) rotateZ(0deg); ] 100% [ transform: rotateY(60deg) rotateZ(360deg); ] ]\n",
    "    .header [\n",
    "      position: relative; z-index: 1;\n",
    "      background: rgba(15,23,42,.75); backdrop-filter: blur(16px);\n",
    "      color: #e2e8f0; padding: 24px 0; text-align: center;\n",
    "      box-shadow: 0 1px 0 rgba(59,130,246,.15), 0 4px 24px rgba(0,0,0,.3);\n",
    "      border-bottom: 1px solid rgba(59,130,246,.1);\n",
    "    ]\n",
    "    .header h1 [ font-size: 1.5rem; font-weight: 500; letter-spacing: .06em; ]\n",
    "    .container [ position: relative; z-index: 1; max-width: 960px; margin: 0 auto; padding: 28px 20px; ]\n",
    "    .filter-bar [\n",
    "      background: rgba(15,23,42,.85); backdrop-filter: blur(12px);\n",
    "      border-radius: 10px; padding: 16px 20px; margin-bottom: 20px;\n",
    "      display: flex; align-items: center; gap: 10px;\n",
    "      box-shadow: 0 4px 16px rgba(0,0,0,.3); border: 1px solid rgba(59,130,246,.15);\n",
    "    ]\n",
    "    .filter-bar label [ font-weight: 500; white-space: nowrap; color: #94a3b8; ]\n",
    "    .filter-bar select [\n",
    "      flex: 1; max-width: 220px; padding: 8px 12px;\n",
    "      border: 1px solid rgba(59,130,246,.3); border-radius: 6px;\n",
    "      font-size: .95rem; background: rgba(30,41,59,.8); color: #e2e8f0;\n",
    "    ]\n",
    "    .filter-bar button [\n",
    "      padding: 8px 20px; background: linear-gradient(135deg, #2563eb, #3b82f6);\n",
    "      color: #fff; border: none; border-radius: 6px; font-size: .95rem;\n",
    "      cursor: pointer; transition: all .2s; box-shadow: 0 2px 8px rgba(37,99,235,.3);\n",
    "    ]\n",
    "    .filter-bar button:hover [ background: linear-gradient(135deg, #1d4ed8, #2563eb); transform: translateY(-1px); box-shadow: 0 4px 16px rgba(37,99,235,.4); ]\n",
    "    .empty-state [ text-align: center; padding: 60px 20px; color: #64748b; font-size: 1.1rem; ]\n",
    "    table [\n",
    "      width: 100%; border-collapse: collapse;\n",
    "      background: rgba(15,23,42,.85); backdrop-filter: blur(12px);\n",
    "      border-radius: 10px; overflow: hidden;\n",
    "      box-shadow: 0 4px 24px rgba(0,0,0,.3); border: 1px solid rgba(59,130,246,.12);\n",
    "    ]\n",
    "    thead [ background: linear-gradient(135deg, rgba(30,58,138,.95), rgba(37,99,235,.85)); color: #fff; ]\n",
    "    th [ padding: 14px 18px; text-align: left; font-weight: 500; font-size: .9rem; letter-spacing: .03em; text-transform: uppercase; ]\n",
    "    td [ padding: 12px 18px; border-bottom: 1px solid rgba(59,130,246,.08); color: #cbd5e1; ]\n",
    "    tbody tr [ transition: background .2s; ]\n",
    "    tbody tr:nth-child(even) [ background: rgba(30,41,59,.4); ]\n",
    "    tbody tr:hover [ background: rgba(37,99,235,.15); ]\n",
    "    tbody td:first-child [ font-weight: 500; color: #e2e8f0; ]\n",
    "    tbody td:not(:first-child):not(:nth-child(2)) [ text-align: center; font-variant-numeric: tabular-nums; ]\n"
  ]

def headClose : Bytes :=
  List.flatMap utf8 [
    "</head>\n",
    "<body>\n",
    "  <div class=\"grid-bg\"></div>\n",
    "  <div class=\"globe-wrap\">\n",
    "    <div class=\"globe\"></div>\n",
    "    <div class=\"ring ring-1\"></div>\n",
    "    <div class=\"ring ring-2\"></div>\n",
    "    <div class=\"ring ring-3\"></div>\n",
    "  </div>\n",
    "  <div class=\"header\"><h1>教育成绩数据分析平台</h1></div>\n",
    "  <div class=\"container\">\n",
    "\n",
    "  <!-- Class filter -->\n"
  ]

def pageHead : Bytes := headOpen ++ styleSheet ++ utf8 "  </style>\n" ++ headClose

def selectHead : Bytes :=
  List.flatMap utf8 [
    "  <form method=\"GET\" class=\"filter-bar\">\n",
    "    <label>班级筛选：</label>\n",
    "    <select name=\"class\" onchange=\"this.form.submit()\">\n",
    "      <option value=\"\">全部班级</option>\n"
  ]

def renderOption (option : Bytes × Bool) : Bytes :=
  utf8 "      <option value=\"" ++ htmlspecialchars option.1 ++ utf8 "\"" ++
  (if option.2 then utf8 " selected" else []) ++
  utf8 ">" ++ htmlspecialchars option.1 ++ utf8 "</option>\n"

def selectTail : Bytes :=
  utf8 "    </select>\n" ++
  utf8 "    <button type=\"submit\">筛选</button>\n" ++
  utf8 "  </form>\n"

def emptyState : Bytes := utf8 "  <div class=\"empty-state\">暂无成绩数据</div>\n"

def tableHead : Bytes :=
  utf8 "  <table>\n" ++
  utf8 "    <thead>\n" ++
  utf8 "      <tr>\n" ++
  utf8 "        <th>姓名</th>\n" ++
  utf8 "        <th>班级</th>\n" ++
  (subjects.flatMap fun s => utf8 "        <th>" ++ htmlspecialchars s ++ utf8 "</th>\n") ++
  utf8 "      </tr>\n" ++
  utf8 "    </thead>\n" ++
  utf8 "    <tbody>\n"

def renderCell (text : Bytes) : Bytes :=
  utf8 "        <td>" ++ htmlspecialchars text ++ utf8 "</td>\n"

/-- `none` where a name or a class is null. -/
def renderRow (row : AssocRow) : Option Bytes := do
  let name ← row.column (utf8 "name")
  let className ← row.column (utf8 "class")
  return utf8 "      <tr>\n" ++ renderCell name ++ renderCell className ++
    (subjects.flatMap fun s => renderCell (formatScore (row.column s))) ++ utf8 "      </tr>\n"

def tableTail : Bytes := utf8 "    </tbody>\n" ++ utf8 "  </table>\n"

def renderTable (rows : List AssocRow) : Option Bytes :=
  if rows.isEmpty then some emptyState
  else do
    let body ← rows.mapM renderRow
    return tableHead ++ body.flatten ++ tableTail

def pageTail : Bytes := utf8 "  </div>\n" ++ utf8 "</body>\n" ++ utf8 "</html>\n"

def render (page : Page) : Option Bytes := do
  let table ← renderTable page.rows
  return pageHead ++ (selectHead ++ page.options.flatMap renderOption ++ selectTail) ++
    (utf8 "\n" ++ table) ++ pageTail

inductive Outcome
  | page (status : ℕ) (body : Bytes)
  | uncaught
deriving DecidableEq

/-- The script with the driver loaded or not and the connection, `none` where it fails. -/
def script (extensionLoaded : Bool) (pdo : Option Exec) (param : Option Bytes) : Outcome :=
  if extensionLoaded then
    match pdo with
    | none => .page 500 connectionFailed
    | some exec =>
      match (page exec param).bind render with
      | none => .uncaught
      | some body => .page 200 body
  else .page 500 extensionMissing

end IndexPhp
end StudentGrades
