import Mathlib.Data.Int.Log
import Mathlib.Data.Rat.Floor
import StudentGrades.Dao

/-!
# The page template

The renderer escapes every class name, student name and cell text and wraps them
in fixed markup. A score is the exact decimal it was read from; it prints as an
integer when it equals its truncation to `int`, otherwise in the default stream
format, which rounds to six significant digits and drops trailing zeros.
-/

namespace StudentGrades
open ByteText

namespace Template

def kSubjects : List Bytes := [utf8 "语文", utf8 "数学", utf8 "英语", utf8 "科学"]

def escapeByte (b : UInt8) : Bytes :=
  if b = 38 then utf8 "&amp;"
  else if b = 60 then utf8 "&lt;"
  else if b = 62 then utf8 "&gt;"
  else if b = 34 then utf8 "&quot;"
  else if b = 39 then utf8 "&#39;"
  else [b]

def escapeHtml (text : Bytes) : Bytes := text.flatMap escapeByte

/-- Truncation to a 32-bit `int`; a value outside gives the conversion's
indefinite result. -/
def castInt (v : ℚ) : ℤ :=
  let t := v.num.tdiv v.den
  if -2147483648 ≤ t ∧ t ≤ 2147483647 then t else -2147483648

def roundEven (x : ℚ) : ℕ :=
  let q := ⌊x⌋.toNat
  let r := x - q
  if r < 1/2 then q else if 1/2 < r then q + 1 else if q % 2 = 0 then q else q + 1

/-- Six significant digits `m` and the decimal exponent `e`, for a positive value. -/
def sixDigits (a : ℚ) : ℕ × ℤ :=
  let e := Int.log 10 a
  let m := roundEven (a / (10:ℚ)^(e - 5))
  if m = 1000000 then (100000, e + 1) else (m, e)

def trimZeros (b : Bytes) : Bytes := (b.reverse.dropWhile (· = 48)).reverse

def withFraction (whole frac : Bytes) : Bytes :=
  if trimZeros frac = [] then whole else whole ++ point :: trimZeros frac

def exponentText (e : ℤ) : Bytes :=
  (if e < 0 then minus else 43) ::
    ((if e.natAbs < 10 then utf8 "0" else []) ++ natText e.natAbs)

def positiveText (a : ℚ) : Bytes :=
  let (m, e) := sixDigits a
  let digits := natText m
  if e < -4 ∨ 6 ≤ e then withFraction (digits.take 1) (digits.drop 1) ++ 101 :: exponentText e
  else if 0 ≤ e then withFraction (digits.take (e.toNat + 1)) (digits.drop (e.toNat + 1))
  else withFraction (utf8 "0") (List.replicate (e.natAbs - 1) 48 ++ digits)

/-- A double in the default format of an output stream. -/
def doubleText (v : ℚ) : Bytes :=
  if v = 0 then utf8 "0" else if v < 0 then minus :: positiveText (-v) else positiveText v

def formatScore (scores : Finmap fun _ : Bytes => ℚ) (subject : Bytes) : Bytes :=
  match scores.lookup subject with
  | none => utf8 "-"
  | some val => if val = castInt val then intText (castInt val) else doubleText val

def selectHead : Bytes :=
  utf8 "<form method=\"GET\" class=\"filter-bar\">\n" ++
  utf8 "  <label>班级筛选：</label>\n" ++
  utf8 "  <select name=\"class\" onchange=\"this.form.submit()\">\n" ++
  utf8 "    <option value=\"\">全部班级</option>\n"

def selectTail : Bytes :=
  utf8 "  </select>\n" ++
  utf8 "  <button type=\"submit\">筛选</button>\n" ++
  utf8 "</form>\n"

def renderOption (selectedClass c : Bytes) : Bytes :=
  utf8 "    <option value=\"" ++ escapeHtml c ++ utf8 "\"" ++
  (if c = selectedClass then utf8 " selected" else []) ++
  utf8 ">" ++ escapeHtml c ++ utf8 "</option>\n"

def renderClassSelect (classes : List Bytes) (selectedClass : Bytes) : Bytes :=
  selectHead ++ classes.flatMap (renderOption selectedClass) ++ selectTail

def tableHead : Bytes :=
  utf8 "<table>\n" ++
  utf8 "  <thead>\n" ++
  utf8 "    <tr>\n" ++
  utf8 "      <th>姓名</th>\n" ++
  utf8 "      <th>班级</th>\n" ++
  (kSubjects.flatMap fun s => utf8 "      <th>" ++ s ++ utf8 "</th>\n") ++
  utf8 "    </tr>\n" ++
  utf8 "  </thead>\n" ++
  utf8 "  <tbody>\n"

def tableTail : Bytes := utf8 "  </tbody>\n" ++ utf8 "</table>\n"

def emptyState : Bytes := utf8 "<div class=\"empty-state\">暂无成绩数据</div>\n"

def renderCell (text : Bytes) : Bytes := utf8 "      <td>" ++ escapeHtml text ++ utf8 "</td>\n"

def renderRow (row : PivotRow) : Bytes :=
  utf8 "    <tr>\n" ++
  renderCell row.studentName ++
  renderCell row.className ++
  (kSubjects.flatMap fun s => renderCell (formatScore row.scores s)) ++
  utf8 "    </tr>\n"

def renderTable (rows : List PivotRow) : Bytes :=
  if rows.isEmpty then emptyState else tableHead ++ rows.flatMap renderRow ++ tableTail

def headOpen : Bytes :=
  List.flatMap utf8 [
    "<!DOCTYPE html>\n",
    "<html lang=\"zh-CN\">\n",
    "<head>\n",
    "  <meta charset=\"UTF-8\">\n",
    "  <title>教育成绩数据分析平台</title>\n",
    "  <style>\n"
  ]

def styleSheet : Bytes :=
  withBraces <| List.flatMap utf8 [
    "    *,*::before,*::after[box-sizing:border-box;margin:0;padding:0;]\n",
    "    body[font-family:-apple-system,BlinkMacSystemFont,\"Segoe UI\",Roboto,\"Noto Sans SC\",sans-serif;color:#e2e8f0;line-height:1.6;min-height:100vh;background:#0a0e27;overflow-x:hidden;]\n",
    "    body::before,body::after[content:'';position:fixed;border-radius:50%;filter:blur(120px);z-index:0;animation:orbFloat 12s ease-in-out infinite alternate;]\n",
    "    body::before[width:600px;height:600px;background:radial-gradient(circle,rgba(59,130,246,.35) 0%,transparent 70%);top:-150px;left:-100px;]\n",
    "    body::after[width:500px;height:500px;background:radial-gradient(circle,rgba(139,92,246,.3) 0%,transparent 70%);bottom:-100px;right:-80px;animation-delay:-6s;]\n",
    "    @keyframes orbFloat[0%[transform:translate(0,0) scale(1);]50%[transform:translate(60px,-40px) scale(1.25);]100%[transform:translate(-30px,30px) scale(1.1);]]\n",
    "    .grid-bg[position:fixed;inset:0;z-index:0;opacity:.06;pointer-events:none;background-image:linear-gradient(rgba(59,130,246,.5) 1px,transparent 1px),linear-gradient(90deg,rgba(59,130,246,.5) 1px,transparent 1px);background-size:60px 60px;animation:gridPulse 8s ease-in-out infinite alternate;]\n",
    "    @keyframes gridPulse[0%[opacity:.04;]100%[opacity:.1;]]\n",
    "    .globe-wrap[position:fixed;z-index:0;pointer-events:none;top:50%;left:50%;transform:translate(-50%,-50%);width:500px;height:500px;]\n",
    "    .globe[position:absolute;inset:20px;border-radius:50%;background:radial-gradient(circle at 35% 35%,rgba(59,130,246,.15) 0%,transparent 50%),radial-gradient(circle at 50% 50%,rgba(16,185,129,.08) 0%,transparent 70%);box-shadow:inset 0 0 80px rgba(59,130,246,.12),0 0 60px rgba(37,99,235,.15),0 0 120px rgba(37,99,235,.06);animation:globePulse 6s ease-in-out infinite alternate;]\n",
    "    .globe::before[content:'';position:absolute;inset:0;border-radius:50%;background:radial-gradient(ellipse 80% 2px at 50% 25%,transparent 49%,rgba(59,130,246,.25) 50%,transparent 51%),radial-gradient(ellipse 90% 2px at 50% 50%,transparent 49%,rgba(59,130,246,.2) 50%,transparent 51%),radial-gradient(ellipse 80% 2px at 50% 75%,transparent 49%,rgba(59,130,246,.15) 50%,transparent 51%);]\n",
    "    .globe::after[content:'';position:absolute;inset:0;border-radius:50%;background:linear-gradient(90deg,transparent 49.5%,rgba(59,130,246,.15) 50%,transparent 50.5%),linear-gradient(150deg,transparent 49.5%,rgba(59,130,246,.1) 50%,transparent 50.5%),linear-gradient(30deg,transparent 49.5%,rgba(59,130,246,.1) 50%,transparent 50.5%);]\n",
    "    .ring[position:absolute;border-radius:50%;pointer-events:none;]\n",
    "    .ring-1[inset:-30px;border:1px solid rgba(59,130,246,.12);animation:ringSpin1 20s linear infinite;clip-path:polygon(0 0,100% 0,100% 60%,0 60%);]\n",
    "    .ring-2[inset:-50px;border:1px solid rgba(139,92,246,.08);transform:rotateX(70deg);animation:ringSpin2 25s linear infinite;]\n",
    "    .ring-3[inset:-15px;border:1px solid rgba(16,185,129,.1);transform:rotateY(60deg);animation:ringSpin3 18s linear infinite;]\n",
    "    .ring-1::after[content:'';position:absolute;width:6px;height:6px;background:rgba(96,165,250,.8);border-radius:50%;top:-3px;left:50%;box-shadow:0 0 8px rgba(59,130,246,.6);]\n",
    "    @keyframes globePulse[0%[box-shadow:inset 0 0 80px rgba(59,130,246,.12),0 0 60px rgba(37,99,235,.15),0 0 120px rgba(37,99,235,.06);]100%[box-shadow:inset 0 0 100px rgba(59,130,246,.18),0 0 80px rgba(37,99,235,.2),0 0 160px rgba(37,99,235,.1);]]\n",
    "    @keyframes ringSpin1[0%[transform:rotateX(75deg) rotateZ(0deg);]100%[transform:rotateX(75deg) rotateZ(360deg);]]\n",
    "    @keyframes ringSpin2[0%[transform:rotateX(70deg) rotateZ(0deg);]100%[transform:rotateX(70deg) rotateZ(-360deg);]]\n",
    "    @keyframes ringSpin3[0%[transform:rotateY(60deg) rotateZ(0deg);]100%[transform:rotateY(60deg) rotateZ(360deg);]]\n",
    "    .header[position:relative;z-index:1;background:rgba(15,23,42,.75);backdrop-filter:blur(16px);color:#e2e8f0;padding:24px 0;text-align:center;box-shadow:0 1px 0 rgba(59,130,246,.15),0 4px 24px rgba(0,0,0,.3);border-bottom:1px solid rgba(59,130,246,.1);]\n",
    "    .header h1[font-size:1.5rem;font-weight:500;letter-spacing:.06em;]\n",
    "    .container[position:relative;z-index:1;max-width:960px;margin:0 auto;padding:28px 20px;]\n",
    "    .filter-bar[background:rgba(15,23,42,.85);backdrop-filter:blur(12px);border-radius:10px;padding:16px 20px;margin-bottom:20px;display:flex;align-items:center;gap:10px;box-shadow:0 4px 16px rgba(0,0,0,.3);border:1px solid rgba(59,130,246,.15);]\n",
    "    .filter-bar label[font-weight:500;white-space:nowrap;color:#94a3b8;]\n",
    "    .filter-bar select[flex:1;max-width:220px;padding:8px 12px;border:1px solid rgba(59,130,246,.3);border-radius:6px;font-size:.95rem;background:rgba(30,41,59,.8);color:#e2e8f0;]\n",
    "    .filter-bar button[padding:8px 20px;background:linear-gradient(135deg,#2563eb,#3b82f6);color:#fff;border:none;border-radius:6px;font-size:.95rem;cursor:pointer;transition:all .2s;box-shadow:0 2px 8px rgba(37,99,235,.3);]\n",
    "    .filter-bar button:hover[background:linear-gradient(135deg,#1d4ed8,#2563eb);transform:translateY(-1px);box-shadow:0 4px 16px rgba(37,99,235,.4);]\n",
    "    .empty-state[text-align:center;padding:60px 20px;color:#64748b;font-size:1.1rem;]\n",
    "    table[width:100%;border-collapse:collapse;background:rgba(15,23,42,.85);backdrop-filter:blur(12px);border-radius:10px;overflow:hidden;box-shadow:0 4px 24px rgba(0,0,0,.3);border:1px solid rgba(59,130,246,.12);]\n",
    "    thead[background:linear-gradient(135deg,rgba(30,58,138,.95),rgba(37,99,235,.85));color:#fff;]\n",
    "    th[padding:14px 18px;text-align:left;font-weight:500;font-size:.9rem;letter-spacing:.03em;text-transform:uppercase;]\n",
    "    td[padding:12px 18px;border-bottom:1px solid rgba(59,130,246,.08);color:#cbd5e1;]\n",
    "    tbody tr[transition:background .2s;]\n",
    "    tbody tr:nth-child(even)[background:rgba(30,41,59,.4);]\n",
    "    tbody tr:hover[background:rgba(37,99,235,.15);]\n",
    "    tbody td:first-child[font-weight:500;color:#e2e8f0;]\n",
    "    tbody td:not(:first-child):not(:nth-child(2))[text-align:center;font-variant-numeric:tabular-nums;]\n"
  ]

def headClose : Bytes :=
  List.flatMap utf8 [
    "</head>\n",
    "<body>\n",
    "  <div class=\"grid-bg\"></div>\n",
    "  <div class=\"globe-wrap\">\n",
    "    <div class=\"globe\"></div>\n",
    "    <div class=\"ring ring-1\"></div>\n",
    "    <div class=\"ring ring-2\"></div>\n",
    "    <div class=\"ring ring-3\"></div>\n",
    "  </div>\n",
    "  <div class=\"header\"><h1>教育成绩数据分析平台</h1></div>\n",
    "  <div class=\"container\">\n"
  ]

def pageHead : Bytes := headOpen ++ styleSheet ++ utf8 "  </style>\n" ++ headClose

def pageTail : Bytes := utf8 "  </div>\n" ++ utf8 "</body>\n" ++ utf8 "</html>\n"

def renderPage (classes : List Bytes) (rows : List PivotRow) (selectedClass : Bytes) : Bytes :=
  pageHead ++ renderClassSelect classes selectedClass ++ renderTable rows ++ pageTail

end Template
end StudentGrades
