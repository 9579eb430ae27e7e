/-
The page of the web front end.

The page is fixed but for one place, the value of the field in which the
goal is typed. The goal is put there with the characters that mean
something in markup escaped, so whatever it holds stays inside the
field.
-/
namespace Deduction.Web.Page

/-- A character as it stands in markup. -/
def escapeChar (c : Char) : List Char :=
  if c = '&' then "&amp;".toList
  else if c = '<' then "&lt;".toList
  else if c = '>' then "&gt;".toList
  else if c = '\x22' then "&#34;".toList
  else if c = '\x27' then "&#39;".toList
  else [c]

/-- A text as it stands in markup. -/
def escape (s : String) : String :=
  String.ofList (s.toList.flatMap escapeChar)

/-- The lines up to the goal. -/
def head : List String :=
  ["<!DOCTYPE html>",
   "<html>",
   "<head>",
   "  <meta charset=\"utf-8\">",
   "  <title>Natural deduction</title>",
   "  <script src=\"https://cdn.socket.io/4.7.5/socket.io.min.js\"></script>",
   "  <style>",
   "    body \x7b background: #525252; color: white; font-family: sans-serif; \x7d",
   "    .table \x7b border: 1px solid #737373; display: flex; align-items: stretch; \x7d",
   "    .table > div \x7b flex: 1; padding: 4px; border-right: 1px solid #737373; \x7d",
   "    .children \x7b display: flex; align-items: flex-start; \x7d",
   "    .children > div \x7b flex: 1; \x7d",
   "    .closed \x7b border: 1px solid #737373; padding: 4px; min-height: 1em; \x7d",
   "    #message \x7b color: #fca5a5; min-height: 1.2em; \x7d",
   "  </style>",
   "</head>",
   "<body>",
   "  <input id=\"goal\" size=\"60\" value=\""]

/-- The lines from the goal on. -/
def tail : List String :=
  ["\">",
   "  <p id=\"message\"></p>",
   "  <div id=\"proof\"></div>",
   "  <script>",
   "    const socket = io();",
   "    const goal = document.getElementById('goal');",
   "    const proof = document.getElementById('proof');",
   "    const message = document.getElementById('message');",
   "    const rules = ['ImplIntro', 'AndIntro', 'OrIntro1', 'OrIntro2', 'Assumption', 'AndElim', 'OrElim'];",
   "    const hypothesisRules = ['Assumption', 'AndElim', 'OrElim'];",
   "",
   "    function renderNode(node) \x7b",
   "      const div = document.createElement('div');",
   "      if (node.closed) \x7b",
   "        div.className = 'closed';",
   "        return div;",
   "      \x7d",
   "      const table = document.createElement('div');",
   "      table.className = 'table';",
   "      const hyps = document.createElement('div');",
   "      node.context.forEach((h, i) => \x7b",
   "        const p = document.createElement('p');",
   "        p.textContent = 'H' + i + ': ' + h;",
   "        hyps.appendChild(p);",
   "      \x7d);",
   "      const g = document.createElement('div');",
   "      g.textContent = node.goal;",
   "      const controls = document.createElement('div');",
   "      const select = document.createElement('select');",
   "      rules.forEach(r => select.add(new Option(r, r)));",
   "      if (node.rule) select.value = node.rule.split('(')[0];",
   "      const index = document.createElement('input');",
   "      index.type = 'number';",
   "      index.min = 0;",
   "      index.max = Math.max(0, node.context.length - 1);",
   "      index.value = 0;",
   "      index.style.width = '3em';",
   "      index.hidden = !hypothesisRules.includes(select.value);",
   "      select.onchange = () => \x7b index.hidden = !hypothesisRules.includes(select.value); \x7d;",
   "      const apply = document.createElement('button');",
   "      apply.textContent = 'apply';",
   "      apply.onclick = () => socket.emit('apply_rule', \x7bpath: node.path, rule: select.value, index: Number(index.value)\x7d);",
   "      const undo = document.createElement('button');",
   "      undo.textContent = 'undo';",
   "      undo.disabled = node.children.length === 0;",
   "      undo.onclick = () => socket.emit('undo', \x7bpath: node.path\x7d);",
   "      controls.append(select, index, apply, undo);",
   "      table.append(hyps, g, controls);",
   "      const children = document.createElement('div');",
   "      children.className = 'children';",
   "      node.children.forEach(child => children.appendChild(renderNode(child)));",
   "      div.append(table, children);",
   "      return div;",
   "    \x7d",
   "",
   "    socket.on('connect', () => socket.emit('set_goal', \x7btext: goal.value\x7d));",
   "    socket.on('update_tree', data => \x7b",
   "      message.textContent = data.proved ? 'All goals proved!' : '';",
   "      proof.replaceChildren(renderNode(data.tree));",
   "    \x7d);",
   "    socket.on('parse_error', data => \x7b",
   "      message.textContent = '';",
   "      const p = document.createElement('p');",
   "      p.textContent = 'unable to parse goal';",
   "      p.title = data.msg;",
   "      proof.replaceChildren(p);",
   "    \x7d);",
   "    socket.on('error', data => \x7b message.textContent = data.msg; \x7d);",
   "    goal.addEventListener('input', () => socket.emit('set_goal', \x7btext: goal.value\x7d));",
   "  </script>",
   "</body>",
   "</html>"]

/-- The page with a goal in its field. -/
def render (goal : String) : String :=
  "\n".intercalate head ++ escape goal ++ "\n".intercalate tail

end Deduction.Web.Page
