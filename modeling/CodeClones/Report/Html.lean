import CodeClones.Report.Entry
import CodeClones.Text.Markup

/-!
# Reports as a page

The report as one self-contained page: a section for each group, a block of code for each of
its entries. File names and snippets are written as text inside markup, so that scanned code
can never become part of the page.
-/

namespace CodeClones.Report

/-- The look of the page. -/
def style : String :=
  "body\x7bfont-family:sans-serif;max-width:960px;margin:2rem auto;padding:0 1rem;color:#222\x7d" ++
  "pre\x7bbackground:#f6f8fa;border:1px solid #d0d7de;border-radius:6px;padding:1rem;" ++
  "overflow-x:auto\x7d.file\x7bcolor:#6e7781\x7d" ++
  "hr\x7bborder:none;border-top:1px solid #d0d7de;margin:2rem 0\x7d"

/-- The block of an entry: its place, then its snippet. -/
def entryBlock (entry : ReportEntry) : String :=
  "<pre><code><span class=\"file\"># " ++ Text.escapeMarkup entry.file ++ ":" ++
    toString entry.startLine ++ "-" ++ toString entry.endLine ++ "</span>\n\n" ++
    Text.escapeMarkup entry.snippet ++ "</code></pre>\n"

/-- The section of a group with its number. -/
def groupSection (number : Nat) (group : List ReportEntry) : String :=
  "<section class=\"group\">\n<h2>Clone " ++ toString number ++ " (" ++
    toString group.length ++ " locations)</h2>\n" ++
    String.join (group.map entryBlock) ++ "</section>\n"

/-- The sections of all groups with a rule between neighbours, or a note that there are
none. -/
def sections (report : Report) : String :=
  if report.isEmpty then "<p>No structural duplications found.</p>\n"
  else
    "<hr>\n".intercalate
      (report.groups.zipIdx.map fun (group, position) => groupSection (position + 1) group)

/-- The report as a page. -/
def toHtml (report : Report) : String :=
  "<!DOCTYPE html>\n<html>\n<head>\n<meta charset=\"utf-8\">\n<title>simstruct report</title>\n" ++
    "<style>" ++ style ++ "</style>\n</head>\n<body>\n" ++
    "<h1>Detected structural duplications</h1>\n" ++ sections report ++ "</body>\n</html>\n"

end CodeClones.Report
